import ScriptSignal.Proofs.Binding

/-!
# The state of a handle

Through its slot and a table a handle leads to one state. Which one is all that a Signal
notices of its bridge: keys do not matter, nor do other handles, since slots and tables agree
and no key is in two slots. A state is written, begun and ended for one handle alone.
-/

namespace ScriptSignal

set_option autoImplicit false

namespace World

def signal? (world : World) (bridge : BridgeId) (handle : Value) : Option SignalState :=
  match world.boundState bridge handle with
  | .ok (_, state) => some state
  | .error _ => none

section Reading

variable {world before after : World} {id : BridgeId} {bridge : Bridge} {handle : Value}

theorem failure_of_unbound {failure : Failure}
    (unbound : world.boundState id handle = .error failure) : failure = .noContext := by
  unfold boundState boundKey at unbound
  split at unbound
  · rename_i other missing
    split at missing
    · cases missing
    · cases missing
      cases unbound
      rfl
  · split at unbound
    · cases unbound
    · cases unbound
      rfl

theorem bound_state_eq_ok_iff {id : BridgeId} {handle : Value} {key : Key} {state : SignalState} :
    world.boundState id handle = .ok (key, state) ↔
      world.boundKey id handle = .ok key ∧ world.state? id key = some state := by
  constructor
  · exact state_of_bound_state
  · rintro ⟨reached, held⟩
    simp [boundState, reached, held]

/-- A handle either has a state, or there is one reason why it has none. -/
theorem bound_state_ext {id : BridgeId} {handle : Value}
    (same : ∀ key state, after.boundState id handle = .ok (key, state) ↔
      before.boundState id handle = .ok (key, state)) :
    after.boundState id handle = before.boundState id handle := by
  cases held : before.boundState id handle with
  | ok found =>
      obtain ⟨key, state⟩ := found
      exact (same key state).2 held
  | error failure =>
      cases now : after.boundState id handle with
      | ok found =>
          obtain ⟨key, state⟩ := found
          have earlier := (same key state).1 now
          rw [held] at earlier
          cases earlier
      | error other => rw [failure_of_unbound held, failure_of_unbound now]

theorem bound_state_of_same {id : BridgeId} {handle : Value}
    (bridges : (after.bridge? id).map (fun bridge => (bridge.classId, bridge.states)) =
      (before.bridge? id).map fun bridge => (bridge.classId, bridge.states))
    (slots : ∀ classId, after.slotKey? handle classId = before.slotKey? handle classId) :
    after.boundState id handle = before.boundState id handle := by
  unfold boundState boundKey state?
  cases found : before.bridge? id with
  | none =>
      have missing : after.bridge? id = none := by simpa [found] using bridges
      simp [missing]
  | some bridge =>
      rw [found, Option.map_some, Option.map_eq_some_iff] at bridges
      obtain ⟨later, foundLater, same⟩ := bridges
      obtain ⟨classes, states⟩ := Prod.mk.inj same
      simp [foundLater, classes, states, slots]

theorem state_of_same {id : BridgeId}
    (bridges : (after.bridge? id).map (fun bridge => (bridge.classId, bridge.states)) =
      (before.bridge? id).map fun bridge => (bridge.classId, bridge.states)) (key : Key) :
    after.state? id key = before.state? id key := by
  unfold state?
  cases found : before.bridge? id with
  | none =>
      have missing : after.bridge? id = none := by simpa [found] using bridges
      simp [missing]
  | some bridge =>
      rw [found, Option.map_some, Option.map_eq_some_iff] at bridges
      obtain ⟨later, foundLater, same⟩ := bridges
      simp [foundLater, (Prod.mk.inj same).2]

theorem signal_eq_some_iff {state : SignalState} :
    world.signal? id handle = some state ↔
      ∃ key, world.boundState id handle = .ok (key, state) := by
  unfold signal?
  cases world.boundState id handle with
  | ok found =>
      obtain ⟨key, held⟩ := found
      simp
  | error failure => simp

theorem bound_state_of_no_signal (none : world.signal? id handle = none) :
    world.boundState id handle = .error .noContext := by
  unfold signal? at none
  split at none
  · cases none
  · rename_i failure unbound
    rw [unbound, failure_of_unbound unbound]

theorem signal_of_bound_state (same : after.boundState id handle = before.boundState id handle) :
    after.signal? id handle = before.signal? id handle := by
  unfold signal?
  rw [same]

theorem signal_of_bridge (found : world.bridge? id = some bridge) (handle : Value) :
    world.signal? id handle =
      (world.slotKey? handle bridge.classId).bind bridge.states.get? := by
  unfold signal? boundState boundKey
  simp only [found, Option.bind_some]
  cases slot : world.slotKey? handle bridge.classId with
  | none => rfl
  | some key =>
      simp only [state?, found, Option.bind_some]
      cases bridge.states.get? key <;> rfl

theorem signal_of_missing (missing : world.bridge? id = none) (handle : Value) :
    world.signal? id handle = none := by
  simp [signal?, boundState, boundKey, missing]

theorem signal_of_unbound (found : world.bridge? id = some bridge)
    (unbound : world.slotKey? handle bridge.classId = none) : world.signal? id handle = none := by
  rw [signal_of_bridge found, unbound]
  rfl

theorem signal_of_same
    (bridges : (after.bridge? id).map (fun bridge => (bridge.classId, bridge.states)) =
      (before.bridge? id).map fun bridge => (bridge.classId, bridge.states))
    (slots : ∀ classId, after.slotKey? handle classId = before.slotKey? handle classId) :
    after.signal? id handle = before.signal? id handle :=
  signal_of_bound_state (bound_state_of_same bridges slots)

theorem signal_of_dead (dead : world.isAlive handle = false) : world.signal? id handle = none := by
  cases found : world.bridge? id with
  | none => exact signal_of_missing found handle
  | some bridge =>
      apply signal_of_unbound found
      cases slot : world.slotKey? handle bridge.classId with
      | none => rfl
      | some key =>
          obtain ⟨bits, native, -⟩ := slot_key_eq_some_iff.1 slot
          have alive : world.isAlive handle = true := is_alive_iff.2 (by simp [native])
          rw [dead] at alive
          cases alive

/-- No small change is noticed by a Signal. -/
theorem Change.signal (change : Change before after) (id : BridgeId) (handle : Value) :
    after.signal? id handle = before.signal? id handle := by
  cases found : before.bridge? id with
  | none =>
      rw [signal_of_missing found]
      rcases change.bridges id with same | ⟨-, bridge, new, states, -⟩
      · rw [found, Option.map_none, Option.map_eq_none_iff] at same
        exact signal_of_missing same handle
      · rw [signal_of_bridge new, states]
        cases after.slotKey? handle bridge.classId <;> rfl
  | some bridge =>
      obtain ⟨later, foundLater, sameClass, -⟩ := change.persists.bridges id bridge found
      apply signal_of_same
      · rcases change.bridges id with same | ⟨missing, -⟩
        · simp only [foundLater, found, Option.map_some, Option.some.injEq] at same ⊢
          rw [sameClass, same]
        · rw [found] at missing
          cases missing
      · exact fun classId => change.slot_key handle classId

theorem Changes.signal (changes : Changes before after) (id : BridgeId) (handle : Value) :
    after.signal? id handle = before.signal? id handle := by
  induction changes with
  | refl => rfl
  | tail _ change induction => exact (change.signal id handle).trans induction

end Reading

/-- Every table agrees with the slots of a class that no other bridge has. -/
structure Paired (world : World) : Prop where
  agree : ∀ id bridge, world.bridge? id = some bridge → world.OneToOne bridge.classId bridge.states
  apart : ∀ id other bridge otherBridge, world.bridge? id = some bridge →
    world.bridge? other = some otherBridge → otherBridge.classId = bridge.classId → other = id

section Writing

variable {world before : World} {id : BridgeId} {handle : Value}

/-- A class has one bridge still, as long as no bridge is new and none has changed its class. -/
theorem Paired.of_agree (paired : before.Paired)
    (origin : ∀ id later, world.bridge? id = some later → ∃ bridge,
      before.bridge? id = some bridge ∧ later.classId = bridge.classId)
    (agree : ∀ id later, world.bridge? id = some later →
      world.OneToOne later.classId later.states) : world.Paired := by
  refine ⟨agree, ?_⟩
  intro id other later otherLater found foundOther same
  obtain ⟨bridge, foundBefore, classes⟩ := origin id later found
  obtain ⟨otherBridge, otherBefore, otherClasses⟩ := origin other otherLater foundOther
  rw [classes, otherClasses] at same
  exact paired.apart id other bridge otherBridge foundBefore otherBefore same

theorem Paired.of_bridges (paired : before.Paired)
    (bridges : ∀ id, (world.bridge? id).map (fun bridge => (bridge.classId, bridge.states)) =
      (before.bridge? id).map fun bridge => (bridge.classId, bridge.states))
    (slots : ∀ value classId, world.slotKey? value classId = before.slotKey? value classId) :
    world.Paired := by
  have origin : ∀ id later, world.bridge? id = some later → ∃ bridge,
      before.bridge? id = some bridge ∧ later.classId = bridge.classId ∧
        later.states = bridge.states := by
    intro id later found
    have same := bridges id
    rw [found, Option.map_some, eq_comm, Option.map_eq_some_iff] at same
    obtain ⟨bridge, foundBefore, equal⟩ := same
    obtain ⟨classes, states⟩ := Prod.mk.inj equal
    exact ⟨bridge, foundBefore, classes.symm, states.symm⟩
  refine paired.of_agree ?_ ?_
  · intro id later found
    obtain ⟨bridge, foundBefore, classes, -⟩ := origin id later found
    exact ⟨bridge, foundBefore, classes⟩
  · intro id later found
    obtain ⟨bridge, foundBefore, classes, states⟩ := origin id later found
    rw [classes, states]
    have agree := paired.agree id bridge foundBefore
    exact agree.of_same (fun value => slots value _) (fun _ => rfl) agree.sound

theorem Paired.bridge_of_bound (paired : world.Paired) {id other : BridgeId} {handle : Value}
    {key otherKey : Key} (bound : world.boundKey id handle = .ok key)
    (also : world.boundKey other handle = .ok otherKey) : other = id := by
  obtain ⟨bridge, found, slot⟩ := bound_key_eq_ok.1 bound
  obtain ⟨otherBridge, foundOther, otherSlot⟩ := bound_key_eq_ok.1 also
  apply paired.apart id other bridge otherBridge found foundOther
  have one := class_of_slot_key slot
  rw [class_of_slot_key otherSlot] at one
  exact Option.some.inj one

theorem Paired.handle_of_bound (paired : world.Paired) {id : BridgeId} {handle other : Value}
    {key : Key} (bound : world.boundKey id handle = .ok key)
    (also : world.boundKey id other = .ok key) : other = handle := by
  obtain ⟨bridge, found, slot⟩ := bound_key_eq_ok.1 bound
  obtain ⟨otherBridge, foundOther, otherSlot⟩ := bound_key_eq_ok.1 also
  cases found.symm.trans foundOther
  exact (paired.agree id bridge found).apart other handle key otherSlot slot

theorem Paired.state_of_bound (paired : world.Paired) {id : BridgeId} {handle : Value} {key : Key}
    (bound : world.boundKey id handle = .ok key) : ∃ state, world.state? id key = some state := by
  obtain ⟨bridge, found, slot⟩ := bound_key_eq_ok.1 bound
  have present := (paired.agree id bridge found).reaches handle key slot
  rw [contains_of_state found] at present
  exact Option.isSome_iff_exists.1 present

theorem signal_write (paired : before.Paired) {key : Key} {old : SignalState}
    (bound : before.boundState id handle = .ok (key, old)) (changes : Changes before world)
    (new : SignalState) (other : BridgeId) (value : Value) :
    (world.modifyStates id fun states => states.set key new).signal? other value =
      if other = id ∧ value = handle then some new else before.signal? other value := by
  obtain ⟨reached, held⟩ := state_of_bound_state bound
  obtain ⟨bridge, found, slot⟩ := bound_key_eq_ok.1 reached
  obtain ⟨later, foundLater, sameClass, -⟩ := changes.persists.bridges id bridge found
  have present : later.states.contains key = true := by
    rw [contains_of_state foundLater, changes.state held]
    rfl
  have keys : ∀ value classId, world.slotKey? value classId = before.slotKey? value classId :=
    changes.slot_key
  rw [← changes.signal other value]
  by_cases same : other = id
  · subst same
    have written := bridge_modify_states world other (fun states => states.set key new) other
    rw [if_pos rfl, foundLater, Option.map_some] at written
    rw [signal_of_bridge written, signal_of_bridge foundLater, slot_key_modify_states]
    by_cases here : value = handle
    · subst here
      rw [if_pos ⟨rfl, rfl⟩, sameClass, keys, slot, Option.bind_some]
      simp [Slab.get_set present]
    · rw [if_neg fun both => here both.2]
      cases slotOther : world.slotKey? value later.classId with
      | none => rfl
      | some otherKey =>
          have different : otherKey ≠ key := by
            rintro rfl
            rw [sameClass, keys] at slotOther
            exact here
              ((paired.agree other bridge found).apart value handle otherKey slotOther slot)
          simp only [Option.bind_some]
          rw [Slab.get_set present, if_neg different]
  · rw [if_neg fun both => same both.1]
    apply signal_of_same
    · rw [bridge_modify_states, if_neg same]
    · exact fun _ => rfl

theorem Paired.write (paired : world.Paired) (id : BridgeId) (key : Key) (state : SignalState) :
    (world.modifyStates id fun states => states.set key state).Paired := by
  refine paired.of_agree ?_ ?_
  · intro other later found
    rw [bridge_modify_states] at found
    split at found
    · rename_i same
      obtain ⟨bridge, reached, rfl⟩ := Option.map_eq_some_iff.1 found
      exact ⟨bridge, same ▸ reached, rfl⟩
    · exact ⟨later, found, rfl⟩
  · intro other later found
    rw [bridge_modify_states] at found
    split at found
    · obtain ⟨bridge, reached, rfl⟩ := Option.map_eq_some_iff.1 found
      have agree := paired.agree id bridge reached
      exact agree.of_same (fun _ => rfl) (contains_set _ key state)
        (Slab.sound_set agree.sound key state)
    · have agree := paired.agree other later found
      exact agree.of_same (fun _ => rfl) (fun _ => rfl) agree.sound

/-- A handle that is not bound is let be, and a bound one loses its key and its state. -/
theorem Paired.finalize_cases (paired : world.Paired) (id : BridgeId) (handle : Value) :
    world.finalizeSignal id handle = (world.emit .unboundFinalize, []) ∧
        (∀ key state, world.boundState id handle ≠ .ok (key, state)) ∨
      ∃ key state, world.boundState id handle = .ok (key, state) ∧
        world.finalizeSignal id handle =
          (((world.bindHandle id handle none).modifyStates id fun states =>
              states.erase key).emit (.finalized key state.callback.isSome),
            state.held.map .drop) := by
  rcases finalize_signal_cases world id handle with
    ⟨same, unbound⟩ | ⟨key, state, reached, held, same⟩ | ⟨key, reached, missing, -⟩
  · exact .inl ⟨same, fun key state bound => unbound key (bound_state_eq_ok_iff.1 bound).1⟩
  · exact .inr ⟨key, state, bound_state_eq_ok_iff.2 ⟨reached, held⟩, same⟩
  · obtain ⟨state, held⟩ := paired.state_of_bound reached
    rw [missing] at held
    cases held

variable {key : Key} {state : SignalState}

theorem bound_key_erase (bound : world.boundKey id handle = .ok key)
    (other : BridgeId) (value : Value) (found : Key) :
    ((world.bindHandle id handle none).modifyStates id fun states =>
        states.erase key).boundKey other value = .ok found ↔
      value ≠ handle ∧ world.boundKey other value = .ok found := by
  obtain ⟨bridge, reached, slot⟩ := bound_key_eq_ok.1 bound
  have slots := slot_key_unbind reached slot
  have bridges := bridge_modify_states (world.bindHandle id handle none) id
    (fun states => states.erase key)
  simp only [bridge_bind_handle] at bridges
  by_cases sameHandle : value = handle
  · subst sameHandle
    simp only [ne_eq, not_true_eq_false, false_and, iff_false]
    intro later
    obtain ⟨otherBridge, foundOther, otherSlot⟩ := bound_key_eq_ok.1 later
    rw [slot_key_modify_states, slots] at otherSlot
    split at otherSlot
    · cases otherSlot
    · rename_i apart
      apply apart
      refine ⟨rfl, ?_⟩
      have one := class_of_slot_key slot
      rw [class_of_slot_key otherSlot] at one
      exact Option.some.inj one
  · simp only [bound_key_eq_ok, bridges, slot_key_modify_states, slots]
    by_cases sameBridge : other = id
    · subst sameBridge
      simp [reached, sameHandle]
    · simp [sameBridge, sameHandle]

theorem state_erase (other : BridgeId) (found : Key) (held : SignalState) :
    ((world.bindHandle id handle none).modifyStates id fun states =>
        states.erase key).state? other found = some held ↔
      world.state? other found = some held ∧ ¬(other = id ∧ found = key) := by
  have bridges := bridge_modify_states (world.bindHandle id handle none) id
    (fun states => states.erase key) other
  rw [bridge_bind_handle] at bridges
  unfold state?
  rw [bridges]
  by_cases sameBridge : other = id
  · subst sameBridge
    rw [if_pos rfl]
    cases reached : world.bridge? other with
    | none => simp
    | some bridge =>
        simp only [Option.map_some, Option.bind_some, Slab.get_erase]
        by_cases sameKey : found = key
        · simp [sameKey]
        · simp [sameKey]
  · rw [if_neg sameBridge, bridge_bind_handle]
    simp [sameBridge]

/-- The states of all handles, once a bound handle was finalized. -/
theorem bound_state_erase (paired : world.Paired)
    (bound : world.boundState id handle = .ok (key, state)) (other : BridgeId) (value : Value)
    (found : Key) (held : SignalState) :
    ((world.bindHandle id handle none).modifyStates id fun states =>
        states.erase key).boundState other value = .ok (found, held) ↔
      value ≠ handle ∧ world.boundState other value = .ok (found, held) := by
  have reached := (bound_state_eq_ok_iff.1 bound).1
  rw [bound_state_eq_ok_iff, bound_key_erase reached, state_erase, bound_state_eq_ok_iff]
  constructor
  · rintro ⟨⟨apart, slot⟩, there, -⟩
    exact ⟨apart, slot, there⟩
  · rintro ⟨apart, slot, there⟩
    refine ⟨⟨apart, slot⟩, there, ?_⟩
    rintro ⟨rfl, rfl⟩
    exact apart (paired.handle_of_bound reached slot)

/-- Where the handle of a state is finalized, the other tables and slots still agree. -/
theorem paired_erase (paired : world.Paired) (bound : world.boundKey id handle = .ok key) :
    ((world.bindHandle id handle none).modifyStates id fun states => states.erase key).Paired := by
  obtain ⟨bridge, reached, slot⟩ := bound_key_eq_ok.1 bound
  have slots := slot_key_unbind reached slot
  have bridges := bridge_modify_states (world.bindHandle id handle none) id
    (fun states => states.erase key)
  simp only [bridge_bind_handle] at bridges
  refine paired.of_agree ?_ ?_
  · intro other later found
    rw [bridges] at found
    split at found
    · rename_i same
      rw [same, reached] at *
      cases found
      exact ⟨bridge, rfl, rfl⟩
    · exact ⟨later, found, rfl⟩
  · intro other later found
    rw [bridges] at found
    by_cases same : other = id
    · rw [if_pos same, reached] at found
      cases found
      apply (paired.agree id bridge reached).erase slot
      intro value
      rw [slot_key_modify_states, slots]
      simp
    · rw [if_neg same] at found
      have classes : later.classId ≠ bridge.classId := fun equal =>
        same (paired.apart id other bridge later reached found equal)
      have agree := paired.agree other later found
      refine agree.of_same ?_ (fun _ => rfl) agree.sound
      intro value
      rw [slot_key_modify_states, slots, if_neg fun both => classes both.2]

theorem signal_finalize_signal (paired : world.Paired) (id : BridgeId) (handle : Value)
    (other : BridgeId) (value : Value) :
    (world.finalizeSignal id handle).1.signal? other value =
      if other = id ∧ value = handle then none else world.signal? other value := by
  rcases paired.finalize_cases id handle with ⟨same, unbound⟩ | ⟨key, state, bound, same⟩
  · rw [same]
    change world.signal? other value = _
    split
    · rename_i here
      obtain ⟨rfl, rfl⟩ := here
      apply Option.eq_none_iff_forall_ne_some.2
      intro found held
      obtain ⟨key, bound⟩ := signal_eq_some_iff.1 held
      exact unbound key found bound
    · rfl
  · rw [same]
    apply Option.ext
    intro found
    have left : ((world.bindHandle id handle none).modifyStates id fun states =>
        states.erase key).signal? other value = some found ↔
          value ≠ handle ∧ world.signal? other value = some found := by
      simp [signal_eq_some_iff, bound_state_erase paired bound]
    refine left.trans ?_
    by_cases here : value = handle
    · by_cases there : other = id
      · simp [here, there]
      · have elsewhere : world.signal? other value ≠ some found := by
          intro held
          obtain ⟨otherKey, also⟩ := signal_eq_some_iff.1 held
          rw [here] at also
          exact there (paired.bridge_of_bound (bound_state_eq_ok_iff.1 bound).1
            (bound_state_eq_ok_iff.1 also).1)
        rw [if_neg fun both => there both.1]
        exact iff_of_false (fun both => both.1 here) elsewhere
    · simp [here]

theorem signal_bind_signal (paired : world.Paired) (awaits : world.Awaits id handle) {route : Route}
    {link : Option StrongRef}
    (room : ∀ later, (world.bindSignal id route handle link).1.bridge? id = some later →
      later.states.capacity ≤ 2 ^ 32) (other : BridgeId) (value : Value) :
    (world.bindSignal id route handle link).1.signal? other value =
      if other = id ∧ value = handle then some ⟨none, link⟩ else world.signal? other value := by
  obtain ⟨bridge, found, fresh⟩ := awaits
  have slots := slot_key_bind_signal found fresh route link
  have bridges := bridge_bind_signal found route handle link
  have agree := paired.agree id bridge found
  by_cases sameBridge : other = id
  · subst sameBridge
    have inserted := bridges other
    rw [if_pos rfl] at inserted
    have larger := room _ inserted
    rw [signal_of_bridge inserted, slots]
    by_cases here : value = handle
    · rw [if_pos ⟨here, rfl⟩, if_pos ⟨rfl, here⟩, Option.bind_some]
      simp [Slab.get_insert agree.sound _ larger]
    · rw [if_neg fun both => here both.1, if_neg fun both => here both.2, signal_of_bridge found]
      cases slot : world.slotKey? value bridge.classId with
      | none => rfl
      | some key =>
          have different : key ≠ bridge.states.nextKey := by
            rintro rfl
            have present := agree.reaches value _ slot
            unfold Slab.contains at present
            rw [Slab.get_next_key agree.sound larger] at present
            cases present
          simp only [Option.bind_some]
          rw [Slab.get_insert agree.sound _ larger, if_neg different]
  · rw [if_neg fun both => sameBridge both.1]
    have kept := bridges other
    rw [if_neg sameBridge] at kept
    cases foundOther : world.bridge? other with
    | none =>
        rw [signal_of_missing foundOther]
        exact signal_of_missing (kept.trans foundOther) value
    | some otherBridge =>
        have classes : otherBridge.classId ≠ bridge.classId := fun equal =>
          sameBridge (paired.apart id other bridge otherBridge found foundOther equal)
        rw [signal_of_bridge foundOther, signal_of_bridge (kept.trans foundOther), slots,
          if_neg fun both => classes both.2]

theorem signal_remove_object (removed : ObjectId) (other : BridgeId) (value : Value) :
    (world.removeObject removed).1.signal? other value =
      if value = .object removed then none else world.signal? other value := by
  have bridges := bridge_remove_object world removed other
  by_cases here : value = .object removed
  · rw [if_pos here]
    cases found : world.bridge? other with
    | none => exact signal_of_missing (bridges.trans found) value
    | some bridge =>
        apply signal_of_unbound (bridges.trans found)
        rw [slot_key_remove_object, if_pos here]
  · rw [if_neg here]
    apply signal_of_same
    · rw [bridges]
    · intro classId
      rw [slot_key_remove_object, if_neg here]

end Writing

end World

end ScriptSignal
