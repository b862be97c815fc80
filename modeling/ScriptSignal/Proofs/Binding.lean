import Mathlib.Data.Set.Function
import ScriptSignal.Proofs.Runs

/-!
# One handle, one state

The slots of the live instances of a class of Signals and the table of its bridge are two
stores that are written one after the other, with other work in between. The invariant is
that a key stands in exactly one slot if it reaches a state, and in no slot if it does not.
It holds before and after every task, so also while finalizers run.
-/

namespace ScriptSignal

set_option autoImplicit false

namespace World

theorem slot_key_eq_some_iff {world : World} {value : Value} {classId : ClassId} {key : Key} :
    world.slotKey? value classId = some key ↔
      ∃ bits, world.kind? value = some (.native classId (some bits)) ∧ Key.ofBits bits = key := by
  rw [slot_key_eq]
  constructor
  · intro found
    obtain ⟨kind, ofValue, found⟩ := Option.bind_eq_some_iff.1 found
    cases kind with
    | native ofClass slot =>
        obtain ⟨rfl, slotted⟩ := Option.ite_none_right_eq_some.1 found
        obtain ⟨bits, rfl, decoded⟩ := Option.map_eq_some_iff.1 slotted
        exact ⟨bits, ofValue, decoded⟩
    | _ => cases found
  · rintro ⟨bits, native, rfl⟩
    simp [native, ObjectKind.key?]

theorem class_of_slot_key {world : World} {value : Value} {classId : ClassId} {key : Key}
    (found : world.slotKey? value classId = some key) : world.classOf? value = some classId := by
  obtain ⟨bits, native, -⟩ := slot_key_eq_some_iff.1 found
  rw [class_of_eq, native]
  rfl

theorem kind_put_self {world : World} {id : ObjectId} {object : Object}
    (found : world.engine.heap.get? id = some object) (changed : Object) (value : Value) :
    (world.putObject id changed).kind? value =
      if value = .object id then some changed.kind else world.kind? value := by
  cases value with
  | object other =>
      by_cases same : other = id
      · subst same
        rw [kind_object, show (world.putObject other changed).engine.heap.get? other = some changed
          from Heap.get_put_same found changed]
        simp
      · rw [kind_object, kind_object, show (world.putObject id changed).engine.heap.get? other =
          world.engine.heap.get? other from Heap.get_put_other _ same changed]
        simp [same]
  | _ => rfl

theorem slot_key_set_slot (world : World) (value : Value) (classId : ClassId) (key : Option Key)
    (other : Value) (otherClass : ClassId) :
    (world.setSlot value classId key).slotKey? other otherClass =
      if other = value ∧ otherClass = classId ∧ world.classOf? value = some classId then key
      else world.slotKey? other otherClass := by
  rcases set_slot_cases world value classId key with
    ⟨same, alien⟩ | ⟨id, object, slot, rfl, found, native, same⟩
  · rw [same]
    simp [alien]
  · have ofClass : world.classOf? (.object id) = some classId := by
      simp [classOf?, object?, Value.object?, found, native]
    have kinds := kind_put_self found
      { object with kind := .native classId (key.map Key.toBits) } other
    rw [same]
    by_cases here : other = .object id
    · subst here
      rw [slot_key_eq, kinds]
      by_cases sameClass : otherClass = classId
      · subst sameClass
        simp [ofClass, ObjectKind.key?, Function.comp_def, Key.of_bits_to_bits]
      · have apart : ¬classId = otherClass := fun equal => sameClass equal.symm
        have old : world.slotKey? (.object id) otherClass = none := by
          simp [slotKey?, object?, Value.object?, found, native, apart]
        simp [apart, sameClass, old, ObjectKind.key?]
    · rw [if_neg here] at kinds
      simp [here, slot_key_of_kind kinds]

theorem class_of_set_slot (world : World) (value : Value) (classId : ClassId)
    (key : Option Key) (other : Value) :
    (world.setSlot value classId key).classOf? other = world.classOf? other := by
  rcases set_slot_cases world value classId key with
    ⟨same, -⟩ | ⟨id, object, slot, rfl, found, native, same⟩
  · rw [same]
  · have kinds := kind_put_self found
      { object with kind := .native classId (key.map Key.toBits) } other
    rw [same]
    by_cases here : other = .object id
    · subst here
      rw [if_pos rfl] at kinds
      rw [class_of_eq, kinds]
      simp [classOf?, object?, Value.object?, found, native, ObjectKind.class?]
    · rw [if_neg here] at kinds
      exact class_of_kind kinds

/-- The keys in the slots of the live instances of a class are the keys that reach a state of
a table, and each of them stands in one slot. -/
structure OneToOne (world : World) (classId : ClassId) (states : Slab SignalState) : Prop where
  sound : states.Sound
  reaches : ∀ handle key, world.slotKey? handle classId = some key → states.contains key = true
  apart : ∀ first second key, world.slotKey? first classId = some key →
    world.slotKey? second classId = some key → first = second
  covered : ∀ key, states.contains key = true →
    ∃ handle, world.slotKey? handle classId = some key

section Agreement

variable {before after : World} {classId : ClassId} {states : Slab SignalState}

theorem OneToOne.of_same (agree : before.OneToOne classId states) {changed : Slab SignalState}
    (slots : ∀ value, after.slotKey? value classId = before.slotKey? value classId)
    (keys : ∀ key, changed.contains key = states.contains key) (sound : changed.Sound) :
    after.OneToOne classId changed where
  sound := sound
  reaches := by
    intro handle key found
    rw [slots] at found
    rw [keys]
    exact agree.reaches handle key found
  apart := by
    intro first second key foundFirst foundSecond
    rw [slots] at foundFirst foundSecond
    exact agree.apart first second key foundFirst foundSecond
  covered := by
    intro key present
    rw [keys] at present
    obtain ⟨handle, found⟩ := agree.covered key present
    exact ⟨handle, by rw [slots, found]⟩

theorem one_to_one_empty (unbound : ∀ value, before.slotKey? value classId = none) :
    before.OneToOne classId .empty where
  sound := Slab.sound_empty
  reaches := by
    intro handle key found
    rw [unbound] at found
    cases found
  apart := by
    intro first second key found
    rw [unbound] at found
    cases found
  covered := by
    intro key present
    simp [Slab.contains, Slab.get?, Slab.slot?, Slab.empty] at present

theorem OneToOne.erase (agree : before.OneToOne classId states) {handle : Value} {key : Key}
    (bound : before.slotKey? handle classId = some key)
    (slots : ∀ value, after.slotKey? value classId =
      if value = handle then none else before.slotKey? value classId) :
    after.OneToOne classId (states.erase key) where
  sound := Slab.sound_erase agree.sound key
  reaches := by
    intro other otherKey found
    rw [slots] at found
    by_cases same : other = handle
    · rw [if_pos same] at found
      cases found
    · rw [if_neg same] at found
      have different : otherKey ≠ key := by
        rintro rfl
        exact same (agree.apart other handle otherKey found bound)
      have present := agree.reaches other otherKey found
      unfold Slab.contains at present ⊢
      rw [Slab.get_erase, if_neg different]
      exact present
  apart := by
    intro first second shared foundFirst foundSecond
    rw [slots] at foundFirst foundSecond
    by_cases sameFirst : first = handle
    · rw [if_pos sameFirst] at foundFirst
      cases foundFirst
    · by_cases sameSecond : second = handle
      · rw [if_pos sameSecond] at foundSecond
        cases foundSecond
      · rw [if_neg sameFirst] at foundFirst
        rw [if_neg sameSecond] at foundSecond
        exact agree.apart first second shared foundFirst foundSecond
  covered := by
    intro otherKey present
    unfold Slab.contains at present
    rw [Slab.get_erase] at present
    by_cases same : otherKey = key
    · simp [same] at present
    · rw [if_neg same] at present
      obtain ⟨other, found⟩ := agree.covered otherKey present
      refine ⟨other, ?_⟩
      have different : other ≠ handle := by
        rintro rfl
        rw [bound] at found
        cases found
        exact same rfl
      rw [slots, if_neg different, found]

theorem OneToOne.insert (agree : before.OneToOne classId states) {handle : Value}
    {state : SignalState} (room : (states.insert state).capacity ≤ 2 ^ 32)
    (unbound : before.slotKey? handle classId = none)
    (slots : ∀ value, after.slotKey? value classId =
      if value = handle then some states.nextKey else before.slotKey? value classId) :
    after.OneToOne classId (states.insert state) where
  sound := Slab.sound_insert agree.sound state
  reaches := by
    intro other key found
    rw [slots] at found
    unfold Slab.contains
    rw [Slab.get_insert agree.sound state room]
    by_cases same : other = handle
    · rw [if_pos same] at found
      cases found
      simp
    · rw [if_neg same] at found
      have present := agree.reaches other key found
      split
      · rfl
      · exact present
  apart := by
    intro first second key foundFirst foundSecond
    have fresh : ∀ other, other ≠ handle →
        before.slotKey? other classId ≠ some states.nextKey := by
      intro other different found
      have present := agree.reaches other states.nextKey found
      unfold Slab.contains at present
      rw [Slab.get_next_key agree.sound room] at present
      cases present
    rw [slots] at foundFirst foundSecond
    by_cases sameFirst : first = handle
    · by_cases sameSecond : second = handle
      · exact sameFirst.trans sameSecond.symm
      · rw [if_pos sameFirst] at foundFirst
        rw [if_neg sameSecond] at foundSecond
        cases foundFirst
        exact absurd foundSecond (fresh second sameSecond)
    · by_cases sameSecond : second = handle
      · rw [if_neg sameFirst] at foundFirst
        rw [if_pos sameSecond] at foundSecond
        cases foundSecond
        exact absurd foundFirst (fresh first sameFirst)
      · rw [if_neg sameFirst] at foundFirst
        rw [if_neg sameSecond] at foundSecond
        exact agree.apart first second key foundFirst foundSecond
  covered := by
    intro key present
    unfold Slab.contains at present
    rw [Slab.get_insert agree.sound state room] at present
    by_cases new : key = states.nextKey
    · exact ⟨handle, by rw [slots, if_pos rfl, new]⟩
    · rw [if_neg new] at present
      obtain ⟨other, found⟩ := agree.covered key present
      refine ⟨other, ?_⟩
      have different : other ≠ handle := by
        rintro rfl
        rw [unbound] at found
        cases found
      rw [slots, if_neg different, found]

end Agreement

theorem contains_set (states : Slab SignalState) (key : Key) (state : SignalState) (other : Key) :
    (states.set key state).contains other = states.contains other := by
  by_cases present : states.contains key = true
  · unfold Slab.contains
    rw [Slab.get_set present]
    split
    · rename_i same
      subst same
      exact present.symm
    · rfl
  · rw [Slab.set_of_not_contains present]

/-- An installed bridge that shares its class with no other bridge. The last condition is
where 32 bits still number the slots of its table: with more Signals than that alive at once,
keys would be given out twice. -/
structure Serves (world : World) (classId : ClassId) (id : BridgeId) (bridge : Bridge) : Prop where
  found : world.bridge? id = some bridge
  installed : bridge.installed = true
  ofClass : bridge.classId = classId
  alone : ∀ other otherBridge, world.bridge? other = some otherBridge →
    otherBridge.classId = classId → other = id
  room : bridge.states.capacity ≤ 2 ^ 32

theorem bridge_of_single {world : World} (single : world.bridges.size = 1) {id : BridgeId}
    {bridge : Bridge} (found : world.bridge? id = some bridge) : id = ⟨0⟩ := by
  obtain ⟨index⟩ := id
  have inside : index < world.bridges.size := (Array.getElem?_eq_some_iff.1 found).1
  rw [single, Nat.lt_one_iff] at inside
  rw [inside]

theorem Serves.before {before after : World} (persists : Persists before after)
    {classId : ClassId} {id : BridgeId} {bridge later : Bridge}
    (found : before.bridge? id = some bridge) (serves : after.Serves classId id later) :
    before.Serves classId id bridge := by
  obtain ⟨same, foundLater, sameClass, -, sameInstalled, grows⟩ := persists.bridges id bridge found
  have equal : same = later := Option.some.inj (foundLater.symm.trans serves.found)
  subst equal
  refine ⟨found, sameInstalled.symm.trans serves.installed, sameClass.symm.trans serves.ofClass,
    ?_, Nat.le_trans grows serves.room⟩
  intro other otherBridge foundOther otherClass
  obtain ⟨otherLater, foundOtherLater, otherSame, -⟩ :=
    persists.bridges other otherBridge foundOther
  exact serves.alone other otherLater foundOtherLater (otherSame.trans otherClass)

structure Bound (world : World) (classId : ClassId) : Prop where
  /-- Every live instance is of a defined class. -/
  defined : ∀ value ofClass, world.classOf? value = some ofClass → world.isDefined ofClass = true
  /-- The functions of the class of an installed bridge refer to the bridge. -/
  installed : ∀ id bridge, world.bridge? id = some bridge → bridge.installed = true →
    ∃ record, world.engine.registry.record? bridge.classId = some record ∧
      record = Registry.made id.definition record.proto
  agree : ∀ id bridge, world.Serves classId id bridge → world.OneToOne classId bridge.states

theorem bound_start (setting : Setting) (classId : ClassId) : (start setting).Bound classId where
  defined := by
    intro value ofClass found
    cases value <;> simp [start, Engine.start, classOf?, object?, Value.object?, Heap.empty,
      Heap.get?] at found
  installed := by
    intro id bridge found
    simp [start, bridge?] at found
  agree := by
    intro id bridge serves
    have found := serves.found
    simp [start, bridge?] at found

theorem Bound.slot_key_of_undefined {world : World} {classId : ClassId}
    (bound : world.Bound classId) {ofClass : ClassId}
    (missing : world.engine.registry.record? ofClass = none) (value : Value) :
    world.slotKey? value ofClass = none := by
  cases found : world.slotKey? value ofClass with
  | none => rfl
  | some key =>
      have defined := bound.defined value ofClass (class_of_slot_key found)
      simp [isDefined, missing] at defined

theorem Change.bound {before after : World} (change : Change before after) {classId : ClassId}
    (bound : before.Bound classId) : after.Bound classId where
  defined := by
    intro value ofClass found
    rcases change.class_of found with old | new
    · exact is_defined_of_persists change.persists (bound.defined value ofClass old)
    · exact new
  installed := by
    intro id later foundLater installed
    cases found : before.bridge? id with
    | some bridge =>
        obtain ⟨same, foundSame, sameClass, -, sameInstalled, -⟩ :=
          change.persists.bridges id bridge found
        have equal : same = later := Option.some.inj (foundSame.symm.trans foundLater)
        subst equal
        obtain ⟨record, held, made⟩ := bound.installed id bridge found
          (sameInstalled.symm.trans installed)
        exact ⟨record, by rw [sameClass]; exact change.persists.records _ _ held, made⟩
    | none =>
        rcases change.bridges id with same | ⟨-, bridge, foundNew, -, made⟩
        · simp [found, foundLater] at same
        · have equal : bridge = later := Option.some.inj (foundNew.symm.trans foundLater)
          subst equal
          exact (made installed).2
  agree := by
    intro id later serves
    cases found : before.bridge? id with
    | some bridge =>
        have agree := bound.agree id bridge (serves.before change.persists found)
        rcases change.bridges id with same | ⟨missing, -⟩
        · have states : later.states = bridge.states := by
            simpa [found, serves.found] using same
          rw [states]
          exact agree.of_same (fun value => change.slot_key value classId) (fun _ => rfl)
            agree.sound
        · rw [missing] at found
          cases found
    | none =>
        rcases change.bridges id with same | ⟨-, bridge, foundNew, states, made⟩
        · simp [found, serves.found] at same
        · have equal : bridge = later := Option.some.inj (foundNew.symm.trans serves.found)
          subst equal
          rw [states]
          apply one_to_one_empty
          intro value
          rw [change.slot_key]
          have missing := (made serves.installed).1
          rw [serves.ofClass] at missing
          exact bound.slot_key_of_undefined missing value

theorem Changes.bound {before after : World} (changes : Changes before after) {classId : ClassId}
    (bound : before.Bound classId) : after.Bound classId := by
  induction changes with
  | refl => exact bound
  | tail _ change induction => exact change.bound induction

section Effects

variable {before after : World} {classId : ClassId}

/-- For a change that makes no bridge it remains to look at the served ones. -/
theorem Bound.of_agree (bound : before.Bound classId) (persists : Persists before after)
    (classes : ∀ value ofClass, after.classOf? value = some ofClass →
      before.classOf? value = some ofClass)
    (old : ∀ id later, after.bridge? id = some later →
      ∃ bridge, before.bridge? id = some bridge)
    (agree : ∀ id bridge later, before.Serves classId id bridge → after.Serves classId id later →
      before.OneToOne classId bridge.states → after.OneToOne classId later.states) :
    after.Bound classId where
  defined := fun value ofClass found =>
    is_defined_of_persists persists (bound.defined value ofClass (classes value ofClass found))
  installed := by
    intro id later foundLater installed
    obtain ⟨bridge, found⟩ := old id later foundLater
    obtain ⟨same, foundSame, sameClass, -, sameInstalled, -⟩ := persists.bridges id bridge found
    have equal : same = later := Option.some.inj (foundSame.symm.trans foundLater)
    subst equal
    obtain ⟨record, held, made⟩ := bound.installed id bridge found
      (sameInstalled.symm.trans installed)
    exact ⟨record, by rw [sameClass]; exact persists.records _ _ held, made⟩
  agree := by
    intro id later serves
    obtain ⟨bridge, found⟩ := old id later serves.found
    have earlier := serves.before persists found
    exact agree id bridge later earlier serves (bound.agree id bridge earlier)

theorem bridge_modify_states (world : World) (id : BridgeId)
    (change : Slab SignalState → Slab SignalState) (other : BridgeId) :
    (world.modifyStates id change).bridge? other =
      if other = id then
        (world.bridge? id).map fun bridge => { bridge with states := change bridge.states }
      else world.bridge? other :=
  bridge_modify world id _ other

theorem old_of_modify_states {world : World} {id : BridgeId}
    {change : Slab SignalState → Slab SignalState} (other : BridgeId) (later : Bridge)
    (found : (world.modifyStates id change).bridge? other = some later) :
    ∃ bridge, world.bridge? other = some bridge := by
  rw [bridge_modify_states] at found
  by_cases same : other = id
  · subst same
    rw [if_pos rfl] at found
    obtain ⟨bridge, held, -⟩ := Option.map_eq_some_iff.1 found
    exact ⟨bridge, held⟩
  · rw [if_neg same] at found
    exact ⟨later, found⟩

theorem bound_write (bound : before.Bound classId) (id : BridgeId) (key : Key)
    (state : SignalState) :
    (before.modifyStates id fun states => states.set key state).Bound classId := by
  have persists := persists_modify_states before id fun states =>
    Nat.le_of_eq (Slab.capacity_set states key state).symm
  refine bound.of_agree persists (fun _ _ found => found) old_of_modify_states ?_
  intro other bridge later serves servesLater agree
  have found := servesLater.found
  rw [bridge_modify_states] at found
  by_cases same : other = id
  · subst same
    rw [if_pos rfl, serves.found] at found
    cases found
    exact agree.of_same (fun _ => rfl) (contains_set _ key state) (Slab.sound_set agree.sound _ _)
  · rw [if_neg same, serves.found] at found
    cases found
    exact agree.of_same (fun _ => rfl) (fun _ => rfl) agree.sound

theorem bridge_set_slot (world : World) (value : Value) (ofClass : ClassId) (key : Option Key)
    (other : BridgeId) : (world.setSlot value ofClass key).bridge? other = world.bridge? other := by
  rcases set_slot_cases world value ofClass key with
    ⟨same, -⟩ | ⟨id, object, slot, -, -, -, same⟩
  · rw [same]
  · rw [same]
    rfl

theorem bridge_bind_handle (world : World) (id : BridgeId) (handle : Value) (key : Option Key)
    (other : BridgeId) : (world.bindHandle id handle key).bridge? other = world.bridge? other := by
  rcases bind_handle_cases world id handle key with same | ⟨bridge, -, same⟩
  · rw [same]
  · rw [same]
    exact bridge_set_slot _ _ _ _ _

theorem class_of_bind_handle (world : World) (id : BridgeId) (handle : Value) (key : Option Key)
    (other : Value) : (world.bindHandle id handle key).classOf? other = world.classOf? other := by
  rcases bind_handle_cases world id handle key with same | ⟨bridge, -, same⟩
  · rw [same]
  · rw [same]
    exact class_of_set_slot _ _ _ _ _

theorem bound_set_slot (bound : before.Bound classId) {ofClass : ClassId}
    (spared : ofClass ≠ classId) (value : Value) (key : Option Key) :
    (before.setSlot value ofClass key).Bound classId := by
  refine bound.of_agree (persists_set_slot before value ofClass key) ?_ ?_ ?_
  · intro other otherClass found
    rwa [class_of_set_slot] at found
  · intro other later found
    rw [bridge_set_slot] at found
    exact ⟨later, found⟩
  · intro other bridge later serves servesLater agree
    have found := servesLater.found
    rw [bridge_set_slot, serves.found] at found
    cases found
    refine agree.of_same ?_ (fun _ => rfl) agree.sound
    intro handle
    rw [slot_key_set_slot]
    exact if_neg fun both => spared both.2.1.symm

theorem bound_emit (bound : before.Bound classId) (event : Event) :
    (before.emit event).Bound classId :=
  (Change.emit before event).bound bound

theorem bound_key_eq_ok {world : World} {id : BridgeId} {handle : Value} {key : Key} :
    world.boundKey id handle = .ok key ↔
      ∃ bridge, world.bridge? id = some bridge ∧
        world.slotKey? handle bridge.classId = some key := by
  unfold boundKey
  cases found : world.bridge? id with
  | none => simp
  | some bridge =>
      cases held : world.slotKey? handle bridge.classId with
      | none => simp [held]
      | some other => simp [held]

theorem slot_key_unbind {world : World} {id : BridgeId} {handle : Value} {bridge : Bridge}
    (found : world.bridge? id = some bridge) {key : Key}
    (held : world.slotKey? handle bridge.classId = some key) (other : Value)
    (ofClass : ClassId) :
    (world.bindHandle id handle none).slotKey? other ofClass =
      if other = handle ∧ ofClass = bridge.classId then none
      else world.slotKey? other ofClass := by
  have handleClass := class_of_slot_key held
  have written : world.bindHandle id handle none = world.setSlot handle bridge.classId none := by
    simp [bindHandle, found]
  rw [written, slot_key_set_slot]
  simp [handleClass]

theorem state_bind_handle (world : World) (id : BridgeId) (handle : Value) (key : Option Key)
    (other : BridgeId) (otherKey : Key) :
    (world.bindHandle id handle key).state? other otherKey = world.state? other otherKey := by
  unfold state?
  rw [bridge_bind_handle]

/-- What finalizing through a bridge does: nothing but a report on a handle that is not bound,
and otherwise the slot is emptied and the state that the key reaches is taken out. -/
theorem finalize_signal_cases (world : World) (id : BridgeId) (handle : Value) :
    world.finalizeSignal id handle = (world.emit .unboundFinalize, []) ∧
        (∀ key, world.boundKey id handle ≠ .ok key) ∨
      (∃ key state, world.boundKey id handle = .ok key ∧ world.state? id key = some state ∧
        world.finalizeSignal id handle =
          (((world.bindHandle id handle none).modifyStates id fun states =>
              states.erase key).emit (.finalized key state.callback.isSome),
            state.held.map .drop)) ∨
      ∃ key, world.boundKey id handle = .ok key ∧ world.state? id key = none ∧
        world.finalizeSignal id handle =
          ((world.bindHandle id handle none).emit (.staleFinalize key), []) := by
  unfold finalizeSignal
  cases bound : world.boundKey id handle with
  | error failure => exact .inl ⟨rfl, by simp⟩
  | ok key =>
      simp only [state_bind_handle]
      cases held : world.state? id key with
      | none => exact .inr (.inr ⟨key, rfl, held, rfl⟩)
      | some state => exact .inr (.inl ⟨key, state, rfl, held, rfl⟩)

theorem contains_of_state {world : World} {id : BridgeId} {bridge : Bridge}
    (found : world.bridge? id = some bridge) {key : Key} :
    bridge.states.contains key = (world.state? id key).isSome := by
  simp [state?, found, Slab.contains]

@[simp] theorem slot_key_emit (world : World) (event : Event) (value : Value)
    (ofClass : ClassId) :
    (world.emit event).slotKey? value ofClass = world.slotKey? value ofClass := rfl

@[simp] theorem slot_key_modify_states (world : World) (id : BridgeId)
    (change : Slab SignalState → Slab SignalState) (value : Value) (ofClass : ClassId) :
    (world.modifyStates id change).slotKey? value ofClass = world.slotKey? value ofClass := rfl

@[simp] theorem class_of_emit (world : World) (event : Event) (value : Value) :
    (world.emit event).classOf? value = world.classOf? value := rfl

@[simp] theorem class_of_modify_states (world : World) (id : BridgeId)
    (change : Slab SignalState → Slab SignalState) (value : Value) :
    (world.modifyStates id change).classOf? value = world.classOf? value := rfl

@[simp] theorem bridge_emit (world : World) (event : Event) (id : BridgeId) :
    (world.emit event).bridge? id = world.bridge? id := rfl

theorem bound_unbind_erase (bound : before.Bound classId) {id : BridgeId} {handle : Value}
    {key : Key} (reached : before.boundKey id handle = .ok key) {event : Event}
    (persists : Persists before
      (((before.bindHandle id handle none).modifyStates id (Slab.erase · key)).emit event)) :
    (((before.bindHandle id handle none).modifyStates id (Slab.erase · key)).emit
      event).Bound classId := by
  obtain ⟨bridge, found, slot⟩ := bound_key_eq_ok.1 reached
  have slots := slot_key_unbind found slot
  refine bound.of_agree persists ?_ ?_ ?_
  · intro value ofClass ofValue
    rw [class_of_emit, class_of_modify_states, class_of_bind_handle] at ofValue
    exact ofValue
  · intro other later foundLater
    rw [bridge_emit] at foundLater
    obtain ⟨earlier, foundEarlier⟩ := old_of_modify_states other later foundLater
    rw [bridge_bind_handle] at foundEarlier
    exact ⟨earlier, foundEarlier⟩
  · intro other served later serves servesLater agree
    have foundLater := servesLater.found
    rw [bridge_emit, bridge_modify_states, bridge_bind_handle, bridge_bind_handle] at foundLater
    by_cases sameBridge : other = id
    · subst sameBridge
      have equal : served = bridge := Option.some.inj (serves.found.symm.trans found)
      subst equal
      rw [if_pos rfl, found] at foundLater
      cases foundLater
      refine agree.erase (serves.ofClass ▸ slot) ?_
      intro value
      rw [slot_key_emit, slot_key_modify_states, slots, serves.ofClass]
      simp
    · rw [if_neg sameBridge, serves.found] at foundLater
      cases foundLater
      have apart : classId ≠ bridge.classId := by
        intro equal
        exact sameBridge (serves.alone id bridge found equal.symm).symm
      refine agree.of_same ?_ (fun _ => rfl) agree.sound
      intro value
      rw [slot_key_emit, slot_key_modify_states, slots]
      exact if_neg fun both => apart both.2

/-- A handle whose key reaches no state is not of a class that a bridge serves. -/
theorem bound_unbind_stale (bound : before.Bound classId) {id : BridgeId} {handle : Value}
    {key : Key} (reached : before.boundKey id handle = .ok key)
    (missing : before.state? id key = none) {event : Event}
    (persists : Persists before ((before.bindHandle id handle none).emit event)) :
    ((before.bindHandle id handle none).emit event).Bound classId := by
  obtain ⟨bridge, found, slot⟩ := bound_key_eq_ok.1 reached
  have slots := slot_key_unbind found slot
  refine bound.of_agree persists ?_ ?_ ?_
  · intro value ofClass ofValue
    rw [class_of_emit, class_of_bind_handle] at ofValue
    exact ofValue
  · intro other later foundLater
    rw [bridge_emit, bridge_bind_handle] at foundLater
    exact ⟨later, foundLater⟩
  · intro other served later serves servesLater agree
    have foundLater := servesLater.found
    rw [bridge_emit, bridge_bind_handle, serves.found] at foundLater
    cases foundLater
    have apart : classId ≠ bridge.classId := by
      intro equal
      have sameBridge := serves.alone id bridge found equal.symm
      subst sameBridge
      have equalBridge : served = bridge := Option.some.inj (serves.found.symm.trans found)
      subst equalBridge
      have present := agree.reaches handle key (equal ▸ slot)
      rw [contains_of_state found, missing] at present
      cases present
    refine agree.of_same ?_ (fun _ => rfl) agree.sound
    intro value
    rw [slot_key_emit, slots]
    exact if_neg fun both => apart both.2

theorem bound_finalize_signal (bound : before.Bound classId) (id : BridgeId) (handle : Value) :
    (before.finalizeSignal id handle).1.Bound classId := by
  have persists := persists_finalize_signal before id handle
  rcases finalize_signal_cases before id handle with
    ⟨same, -⟩ | ⟨key, state, reached, held, same⟩ | ⟨key, reached, missing, same⟩
  · rw [same]
    exact bound_emit bound _
  · rw [same] at persists ⊢
    exact bound_unbind_erase bound reached persists
  · rw [same] at persists ⊢
    exact bound_unbind_stale bound reached missing persists

theorem bound_settle_bridge (bound : before.Bound classId)
    (running : before.engine.running = true) (id : BridgeId) :
    (before.settleBridge id).1.Bound classId := by
  by_cases holds : before.holdsBridge id = true
  · have same : before.settleBridge id = (before, []) := by simp [settleBridge, holds]
    rw [same]
    exact bound
  · have cleared : (before.modifyStates id Slab.clear).Bound classId := by
      have persists := persists_modify_states before id fun states =>
        (by simp [Slab.capacity, Slab.clear] : states.capacity ≤ states.clear.capacity)
      refine bound.of_agree persists (fun _ _ found => found) old_of_modify_states ?_
      intro other bridge later serves servesLater agree
      have found := servesLater.found
      rw [bridge_modify_states] at found
      have apart : other ≠ id := by
        rintro rfl
        apply holds
        simp [holdsBridge, serves.found, serves.installed, running]
      rw [if_neg apart, serves.found] at found
      cases found
      exact agree.of_same (fun _ => rfl) (fun _ => rfl) agree.sound
    unfold settleBridge
    rw [if_neg holds]
    dsimp only
    split
    · exact cleared
    · exact bound_emit cleared _

theorem Effect.bound {world : World} (effect : Effect world after) (bound : world.Bound classId)
    (running : after.engine.running = true) : after.Bound classId := by
  cases effect with
  | changes changes => exact changes.bound bound
  | write new first found last => exact last.bound (bound_write (first.bound bound) _ _ new)
  | finalize first id handle => exact bound_finalize_signal (first.bound bound) id handle
  | settle first id =>
      refine bound_settle_bridge (first.bound bound) ?_ id
      rw [← (persists_settle_bridge _ id).running]
      exact running
  | stop stopped =>
      rw [stopped] at running
      cases running

theorem kind_remove_object (world : World) (id : ObjectId) (value : Value) :
    (world.removeObject id).1.kind? value =
      if value = .object id then none else world.kind? value := by
  unfold removeObject
  cases found : world.engine.heap.get? id with
  | none =>
      by_cases same : value = .object id
      · subst same
        simp [kind_object, found]
      · rw [if_neg same]
  | some object =>
      cases value with
      | object other =>
          change ((world.engine.heap.remove id).get? other).map Object.kind = _
          by_cases same : other = id
          · subst same
            simp
          · rw [Heap.get_remove_other _ same]
            simp [same, kind_object]
      | _ => rfl

theorem bridge_remove_object (world : World) (id : ObjectId) (other : BridgeId) :
    (world.removeObject id).1.bridge? other = world.bridge? other := by
  unfold removeObject
  split <;> rfl

theorem slot_key_remove_object (world : World) (id : ObjectId) (value : Value)
    (ofClass : ClassId) :
    (world.removeObject id).1.slotKey? value ofClass =
      if value = .object id then none else world.slotKey? value ofClass := by
  have kinds := kind_remove_object world id value
  by_cases same : value = .object id
  · subst same
    rw [if_pos rfl] at kinds ⊢
    rw [slot_key_eq, kinds]
    rfl
  · rw [if_neg same] at kinds ⊢
    exact slot_key_of_kind kinds

theorem bound_remove_object (bound : before.Bound classId) {id : ObjectId}
    (unbound : ∀ other bridge, before.Serves classId other bridge →
      before.slotKey? (.object id) classId = none) :
    (before.removeObject id).1.Bound classId := by
  refine bound.of_agree (persists_remove_object before id) ?_ ?_ ?_
  · intro value ofClass ofValue
    have kinds := kind_remove_object before id value
    by_cases same : value = .object id
    · rw [if_pos same] at kinds
      rw [class_of_eq, kinds] at ofValue
      cases ofValue
    · rw [if_neg same] at kinds
      rw [← class_of_kind kinds]
      exact ofValue
  · intro other later found
    rw [bridge_remove_object] at found
    exact ⟨later, found⟩
  · intro other bridge later serves servesLater agree
    have found := servesLater.found
    rw [bridge_remove_object, serves.found] at found
    cases found
    refine agree.of_same ?_ (fun _ => rfl) agree.sound
    intro value
    rw [slot_key_remove_object]
    by_cases same : value = .object id
    · rw [if_pos same, same]
      exact (unbound other bridge serves).symm
    · rw [if_neg same]

def Awaits (world : World) (id : BridgeId) (handle : Value) : Prop :=
  ∃ bridge, world.bridge? id = some bridge ∧
    world.kind? handle = some (.native bridge.classId none)

theorem bind_signal_eq {world : World} {id : BridgeId} {bridge : Bridge}
    (found : world.bridge? id = some bridge) (route : Route) (handle : Value)
    (link : Option StrongRef) :
    world.bindSignal id route handle link =
      ((((world.modifyStates id fun states => states.insert ⟨none, link⟩).bindHandle id handle
          (some bridge.states.nextKey)).emit
            (.constructed bridge.states.nextKey link.isSome)),
        [.answer (route.reply (.ok handle))]) := by
  simp [bindSignal, found, done]

theorem slot_key_bind_signal {world : World} {id : BridgeId} {handle : Value} {bridge : Bridge}
    (found : world.bridge? id = some bridge)
    (fresh : world.kind? handle = some (.native bridge.classId none)) (route : Route)
    (link : Option StrongRef) (other : Value) (ofClass : ClassId) :
    (world.bindSignal id route handle link).1.slotKey? other ofClass =
      if other = handle ∧ ofClass = bridge.classId then some bridge.states.nextKey
      else world.slotKey? other ofClass := by
  have handleClass : world.classOf? handle = some bridge.classId := by
    rw [class_of_eq, fresh]
    rfl
  have reached := bridge_modify_states world id (fun states => states.insert ⟨none, link⟩) id
  rw [if_pos rfl, found] at reached
  rw [bind_signal_eq found, slot_key_emit]
  unfold bindHandle
  simp only [reached, Option.map_some]
  rw [slot_key_set_slot]
  simp [handleClass]

theorem bridge_bind_signal {world : World} {id : BridgeId} {bridge : Bridge}
    (found : world.bridge? id = some bridge) (route : Route) (handle : Value)
    (link : Option StrongRef) (other : BridgeId) :
    (world.bindSignal id route handle link).1.bridge? other =
      if other = id then some { bridge with states := bridge.states.insert ⟨none, link⟩ }
      else world.bridge? other := by
  rw [bind_signal_eq found, bridge_emit, bridge_bind_handle, bridge_modify_states, found]
  rfl

theorem class_of_bind_signal {world : World} {id : BridgeId} {bridge : Bridge}
    (found : world.bridge? id = some bridge) (route : Route) (handle : Value)
    (link : Option StrongRef) (value : Value) :
    (world.bindSignal id route handle link).1.classOf? value = world.classOf? value := by
  rw [bind_signal_eq found, class_of_emit, class_of_bind_handle, class_of_modify_states]

theorem slot_key_of_unbound {world : World} {value : Value} {classId : ClassId}
    (fresh : world.kind? value = some (.native classId none)) (ofClass : ClassId) :
    world.slotKey? value ofClass = none := by
  cases found : world.slotKey? value ofClass with
  | none => rfl
  | some key =>
      obtain ⟨bits, native, -⟩ := slot_key_eq_some_iff.1 found
      rw [fresh] at native
      cases native

theorem bound_bind_signal (bound : before.Bound classId) {id : BridgeId} {handle : Value}
    (awaits : before.Awaits id handle) (route : Route) (link : Option StrongRef) :
    (before.bindSignal id route handle link).1.Bound classId := by
  obtain ⟨bridge, found, fresh⟩ := awaits
  have slots := slot_key_bind_signal found fresh route link
  refine bound.of_agree (persists_bind_signal before id route handle link) ?_ ?_ ?_
  · intro value ofClass ofValue
    rwa [class_of_bind_signal found] at ofValue
  · intro other later foundLater
    rw [bridge_bind_signal found] at foundLater
    by_cases same : other = id
    · subst same
      exact ⟨bridge, found⟩
    · rw [if_neg same] at foundLater
      exact ⟨later, foundLater⟩
  · intro other served later serves servesLater agree
    have foundLater := servesLater.found
    rw [bridge_bind_signal found] at foundLater
    by_cases same : other = id
    · subst same
      have equal : served = bridge := Option.some.inj (serves.found.symm.trans found)
      subst equal
      rw [if_pos rfl] at foundLater
      cases foundLater
      refine agree.insert servesLater.room (slot_key_of_unbound fresh classId) ?_
      intro value
      rw [slots, serves.ofClass]
      simp
    · rw [if_neg same, serves.found] at foundLater
      cases foundLater
      have apart : classId ≠ bridge.classId := by
        intro equal
        exact same (serves.alone id bridge found equal.symm).symm
      refine agree.of_same ?_ (fun _ => rfl) agree.sound
      intro value
      rw [slots]
      exact if_neg fun both => apart both.2

theorem Changes.kind {value : Value} {kind : ObjectKind} (changes : Changes before after)
    (found : before.kind? value = some kind) : after.kind? value = some kind := by
  induction changes with
  | refl => exact found
  | @tail middle _ _ change induction =>
      rcases change.kinds value with same | ⟨rfl, -⟩
      · exact same.trans induction
      · rw [kind_next] at induction
        cases induction

theorem is_alive_iff {world : World} {value : Value} :
    world.isAlive value = true ↔ (world.kind? value).isSome = true := by
  simp [isAlive, kind?]

theorem is_alive_of_kind {world other : World} {value : Value}
    (same : other.kind? value = world.kind? value) : other.isAlive value = world.isAlive value := by
  rw [Bool.eq_iff_iff, is_alive_iff, is_alive_iff, same]

theorem Changes.alive {value : Value} (changes : Changes before after)
    (alive : before.isAlive value = true) : after.isAlive value = true := by
  obtain ⟨kind, found⟩ := Option.isSome_iff_exists.1 (is_alive_iff.1 alive)
  exact is_alive_iff.2 (by rw [changes.kind found]; rfl)

theorem Changes.dead {value : Value} (changes : Changes before after)
    (known : value.Within before.size) (dead : before.isAlive value = false) :
    after.isAlive value = false := by
  induction changes with
  | refl => exact dead
  | @tail middle _ first change induction =>
      rcases change.kinds value with same | ⟨rfl, -⟩
      · rw [is_alive_of_kind same]
        exact induction
      · have inside : middle.nextValue.Within middle.size :=
            known.mono (Changes.persists first).size
        exact absurd inside (Nat.lt_irrefl _)

@[simp] theorem is_alive_set_slot (world : World) (written : Value) (ofClass : ClassId)
    (key : Option Key) (value : Value) :
    (world.setSlot written ofClass key).isAlive value = world.isAlive value := by
  rcases set_slot_cases world written ofClass key with
    ⟨same, -⟩ | ⟨id, object, slot, -, found, -, same⟩
  · rw [same]
  · rw [same, Bool.eq_iff_iff, is_alive_iff, is_alive_iff, kind_put_self found]
    split
    · rename_i here
      subst here
      simp [kind_object, found]
    · rfl

@[simp] theorem is_alive_bind_handle (world : World) (id : BridgeId) (handle : Value)
    (key : Option Key) (value : Value) :
    (world.bindHandle id handle key).isAlive value = world.isAlive value := by
  rcases bind_handle_cases world id handle key with same | ⟨bridge, -, same⟩
  · rw [same]
  · rw [same, is_alive_set_slot]

@[simp] theorem is_alive_finalize_signal (world : World) (id : BridgeId) (handle value : Value) :
    (world.finalizeSignal id handle).1.isAlive value = world.isAlive value := by
  have unbound := is_alive_bind_handle world id handle none value
  rcases finalize_signal_cases world id handle with
    ⟨same, -⟩ | ⟨key, state, -, -, same⟩ | ⟨key, -, -, same⟩
  · rw [same]
    rfl
  · rw [same]
    exact unbound
  · rw [same]
    exact unbound

@[simp] theorem is_alive_bind_signal (world : World) (id : BridgeId) (route : Route)
    (handle : Value) (link : Option StrongRef) (value : Value) :
    (world.bindSignal id route handle link).1.isAlive value = world.isAlive value := by
  unfold bindSignal
  split
  · exact is_alive_bind_handle _ id handle _ value
  · rfl

theorem Effect.alive {value : Value} (effect : Effect before after)
    (running : after.engine.running = true) (alive : before.isAlive value = true) :
    after.isAlive value = true := by
  cases effect with
  | changes changes => exact changes.alive alive
  | write new first found last => exact last.alive (first.alive alive)
  | finalize first id handle =>
      rw [is_alive_finalize_signal]
      exact first.alive alive
  | settle first id =>
      have kept := first.alive alive
      unfold settleBridge
      split
      · exact kept
      · dsimp only
        split <;> exact kept
  | stop stopped =>
      rw [stopped] at running
      cases running

def Origin (before after : World) : Prop :=
  ∀ id later, after.bridge? id = some later → later.installed = true →
    (∃ bridge, before.bridge? id = some bridge) ∨
      before.engine.registry.record? later.classId = none

theorem Origin.of_old (old : ∀ id later, after.bridge? id = some later →
    ∃ bridge, before.bridge? id = some bridge) : Origin before after :=
  fun id later found _ => .inl (old id later found)

theorem Origin.trans {middle : World} (first : Origin before middle)
    (persists : Persists before middle) (last : Origin middle after)
    (persistsLast : Persists middle after) : Origin before after := by
  intro id later found installed
  rcases last id later found installed with ⟨bridge, foundMiddle⟩ | missing
  · obtain ⟨same, foundSame, sameClass, -, sameInstalled, -⟩ :=
      persistsLast.bridges id bridge foundMiddle
    have equal : same = later := Option.some.inj (foundSame.symm.trans found)
    subst equal
    rw [sameClass]
    exact first id bridge foundMiddle (sameInstalled.symm.trans installed)
  · right
    cases held : before.engine.registry.record? later.classId with
    | none => rfl
    | some record =>
        rw [persists.records _ record held] at missing
        cases missing

theorem Change.origin (change : Change before after) : Origin before after := by
  intro id later found installed
  cases held : before.bridge? id with
  | some bridge => exact .inl ⟨bridge, rfl⟩
  | none =>
      rcases change.bridges id with same | ⟨-, bridge, foundNew, -, made⟩
      · simp [held, found] at same
      · have equal : bridge = later := Option.some.inj (foundNew.symm.trans found)
        subst equal
        exact .inr (made installed).1

theorem Changes.origin (changes : Changes before after) : Origin before after := by
  induction changes with
  | refl => exact .of_old fun _ later found => ⟨later, found⟩
  | tail first change induction =>
      exact induction.trans (Changes.persists first) change.origin change.persists

theorem old_of_finalize_signal (world : World) (id : BridgeId) (handle : Value) :
    Origin world (world.finalizeSignal id handle).1 := by
  apply Origin.of_old
  intro other later found
  rcases finalize_signal_cases world id handle with
    ⟨same, -⟩ | ⟨key, state, -, -, same⟩ | ⟨key, -, -, same⟩
  · rw [same] at found
    exact ⟨later, found⟩
  · rw [same, bridge_emit] at found
    obtain ⟨bridge, held⟩ := old_of_modify_states other later found
    rw [bridge_bind_handle] at held
    exact ⟨bridge, held⟩
  · rw [same, bridge_emit, bridge_bind_handle] at found
    exact ⟨later, found⟩

theorem old_of_settle_bridge (world : World) (id : BridgeId) :
    Origin world (world.settleBridge id).1 := by
  apply Origin.of_old
  intro other later found
  unfold settleBridge at found
  split at found
  · exact ⟨later, found⟩
  · dsimp only at found
    split at found
    · exact old_of_modify_states other later found
    · exact old_of_modify_states other later found

theorem Effect.origin (effect : Effect before after) (running : after.engine.running = true) :
    Origin before after := by
  cases effect with
  | changes changes => exact changes.origin
  | @write world _ id key old new first found last =>
      have persists := persists_modify_states world id fun states =>
        Nat.le_of_eq (Slab.capacity_set states key new).symm
      have written : Origin world (world.modifyStates id fun states => states.set key new) :=
        .of_old old_of_modify_states
      exact (first.origin.trans first.persists written persists).trans
        (first.persists.trans persists) last.origin last.persists
  | finalize first id handle =>
      exact first.origin.trans first.persists (old_of_finalize_signal _ id handle)
        (persists_finalize_signal _ id handle)
  | settle first id =>
      exact first.origin.trans first.persists (old_of_settle_bridge _ id)
        (persists_settle_bridge _ id)
  | stop stopped =>
      rw [stopped] at running
      cases running

theorem slot_key_finalize_signal (world : World) (id : BridgeId) (handle value : Value)
    (ofClass : ClassId) :
    (world.finalizeSignal id handle).1.slotKey? value ofClass = world.slotKey? value ofClass ∨
      (world.finalizeSignal id handle).1.slotKey? value ofClass = none := by
  rcases finalize_signal_cases world id handle with
    ⟨same, -⟩ | ⟨key, state, reached, -, same⟩ | ⟨key, reached, -, same⟩
  · rw [same]
    exact .inl rfl
  · obtain ⟨bridge, found, slot⟩ := bound_key_eq_ok.1 reached
    rw [same, slot_key_emit, slot_key_modify_states, slot_key_unbind found slot]
    split
    · exact .inr rfl
    · exact .inl rfl
  · obtain ⟨bridge, found, slot⟩ := bound_key_eq_ok.1 reached
    rw [same, slot_key_emit, slot_key_unbind found slot]
    split
    · exact .inr rfl
    · exact .inl rfl

theorem slot_key_settle_bridge (world : World) (id : BridgeId) (value : Value)
    (ofClass : ClassId) :
    (world.settleBridge id).1.slotKey? value ofClass = world.slotKey? value ofClass := by
  unfold settleBridge
  split
  · rfl
  · dsimp only
    split <;> rfl

theorem Effect.slot_key (effect : Effect before after) (running : after.engine.running = true)
    (value : Value) (ofClass : ClassId) :
    after.slotKey? value ofClass = before.slotKey? value ofClass ∨
      after.slotKey? value ofClass = none := by
  cases effect with
  | changes changes => exact .inl (changes.slot_key value ofClass)
  | write new first found last =>
      exact .inl ((last.slot_key value ofClass).trans (first.slot_key value ofClass))
  | finalize first id handle =>
      rw [← first.slot_key value ofClass]
      exact slot_key_finalize_signal _ id handle value ofClass
  | settle first id =>
      exact .inl ((slot_key_settle_bridge _ id value ofClass).trans
        (first.slot_key value ofClass))
  | stop stopped =>
      rw [stopped] at running
      cases running

theorem unbound_after (bound : before.Bound classId) (persists : Persists before after)
    (origin : Origin before after) {value : Value}
    (keys : after.slotKey? value classId = before.slotKey? value classId ∨
      after.slotKey? value classId = none)
    (unbound : ∀ id bridge, before.Serves classId id bridge →
      before.slotKey? value classId = none)
    {id : BridgeId} {later : Bridge} (serves : after.Serves classId id later) :
    after.slotKey? value classId = none := by
  rcases keys with same | gone
  · rw [same]
    rcases origin id later serves.found serves.installed with ⟨bridge, found⟩ | missing
    · exact unbound id bridge (serves.before persists found)
    · rw [serves.ofClass] at missing
      exact bound.slot_key_of_undefined missing value
  · exact gone

end Effects

end World

end ScriptSignal
