import ScriptSignal.Proofs.Garbage
import ScriptSignal.Proofs.Unbinding

/-!
# What a cascade leaves behind

References are given back, handles are finalized, and objects are removed. Whatever the order
is, the world that is left can be read off the world before: how often a reference was given
back to an object, which objects were finalized, and which were removed.
-/

namespace ScriptSignal

set_option autoImplicit false

namespace World

structure SameSetting (before after : World) : Prop where
  registry : after.engine.registry = before.engine.registry
  places : after.engine.heap.places.size = before.engine.heap.places.size
  size : after.bridges.size = before.bridges.size
  bridges : ∀ id, (after.bridge? id).map (fun bridge => (bridge.classId, bridge.config)) =
    (before.bridge? id).map fun bridge => (bridge.classId, bridge.config)
  client : after.client = { before.client with registers := after.client.registers }

/-- Objects have lost so many references, and nothing else of them or of the Signals is
different. -/
structure Lowered (before after : World) (given : ObjectId → Nat) : Prop where
  setting : SameSetting before after
  mode : after.engine.mode = before.engine.mode
  total : after.engine.finalized = before.engine.finalized
  objects : ∀ id, after.engine.heap.get? id =
    (before.engine.heap.get? id).map fun object =>
      { object with refCount := object.refCount - given id }
  tables : ∀ id, (after.bridge? id).map (fun bridge => (bridge.classId, bridge.states)) =
    (before.bridge? id).map fun bridge => (bridge.classId, bridge.states)

/-- How a cascade that is under way differs from where it began. An object that was finalized
is still there until it is removed, but has lost its state. -/
structure Sweep (before after : World) (removed finalized : Finset ObjectId)
    (released : ObjectId → Nat) : Prop where
  setting : SameSetting before after
  mode : after.engine.mode = before.engine.mode
  total : after.engine.finalized = before.engine.finalized + removed.card
  paired : after.Paired
  within : removed ⊆ finalized
  live : ∀ id ∈ finalized, before.isAlive (.object id) = true
  gone : ∀ id ∈ removed, after.engine.heap.get? id = none
  kept : ∀ id, id ∉ removed → ∃ rekind : ObjectKind → ObjectKind,
    after.engine.heap.get? id = (before.engine.heap.get? id).map (fun object =>
      { object with refCount := object.refCount - released id, kind := rekind object.kind }) ∧
    (id ∉ finalized → ∀ kind, rekind kind = kind)
  bound : ∀ bridge id key state, after.boundState bridge (.object id) = .ok (key, state) ↔
    id ∉ finalized ∧ before.boundState bridge (.object id) = .ok (key, state)
  tables : ∀ bridge key state, after.state? bridge key = some state ↔
    before.state? bridge key = some state ∧
      ∀ id ∈ finalized, before.boundState bridge (.object id) ≠ .ok (key, state)

section Settings

variable {before world after : World}

theorem SameSetting.refl (world : World) : SameSetting world world :=
  ⟨rfl, rfl, rfl, fun _ => rfl, rfl⟩

theorem SameSetting.trans (first : SameSetting before world) (last : SameSetting world after) :
    SameSetting before after where
  registry := last.registry.trans first.registry
  places := last.places.trans first.places
  size := last.size.trans first.size
  bridges := fun id => (last.bridges id).trans (first.bridges id)
  client := by
    rw [last.client, first.client]

theorem same_setting_emit (world : World) (event : Event) : SameSetting world (world.emit event) :=
  ⟨rfl, rfl, rfl, fun _ => rfl, rfl⟩

theorem same_setting_put (world : World) (id : ObjectId) (object : Object) :
    SameSetting world (world.putObject id object) where
  registry := rfl
  places := by simp [putObject, Heap.put]
  size := rfl
  bridges := fun _ => rfl
  client := rfl

theorem same_setting_set_slot (world : World) (value : Value) (classId : ClassId)
    (key : Option Key) : SameSetting world (world.setSlot value classId key) := by
  rcases set_slot_cases world value classId key with
    ⟨same, -⟩ | ⟨id, object, slot, -, -, -, same⟩
  · rw [same]
    exact .refl world
  · rw [same]
    exact same_setting_put world id _

theorem same_setting_bind_handle (world : World) (bridge : BridgeId) (handle : Value)
    (key : Option Key) : SameSetting world (world.bindHandle bridge handle key) := by
  rcases bind_handle_cases world bridge handle key with same | ⟨held, -, same⟩
  · rw [same]
    exact .refl world
  · rw [same]
    exact same_setting_set_slot world handle held.classId key

theorem same_setting_modify_bridge (world : World) (id : BridgeId) {change : Bridge → Bridge}
    (same : ∀ bridge, (change bridge).classId = bridge.classId ∧
      (change bridge).config = bridge.config) :
    SameSetting world (world.modifyBridge id change) where
  registry := rfl
  places := rfl
  size := by simp [modifyBridge]
  bridges := by
    intro other
    rw [bridge_modify]
    split
    · rename_i here
      subst here
      simp [Option.map_map, Function.comp_def, same]
    · rfl
  client := rfl

theorem same_setting_without (world : World) (id : ObjectId) :
    SameSetting world (world.without id) where
  registry := rfl
  places := by simp [without, Heap.remove]
  size := rfl
  bridges := fun _ => rfl
  client := rfl

theorem same_setting_run_finalizer (paired : world.Paired) (tidy : world.Tidy) (id : ObjectId) :
    SameSetting world (world.runFinalizer id).1 := by
  rcases paired.finalizer_cases tidy id with ⟨same | same, -⟩ | ⟨bridge, key, state, -, same⟩
  · rw [same]
    exact .refl world
  · rw [same]
    exact same_setting_emit world _
  · rw [same]
    have unbound := same_setting_bind_handle world bridge (.object id) none
    have erased : SameSetting (world.bindHandle bridge (.object id) none)
        ((world.bindHandle bridge (.object id) none).modifyStates bridge fun states =>
          states.erase key) := same_setting_modify_bridge _ bridge fun _ => ⟨rfl, rfl⟩
    exact (unbound.trans erased).trans (same_setting_emit _ _)

theorem total_bind_handle (world : World) (bridge : BridgeId) (handle : Value)
    (key : Option Key) :
    (world.bindHandle bridge handle key).engine.finalized = world.engine.finalized := by
  rcases bind_handle_cases world bridge handle key with same | ⟨held, -, same⟩
  · rw [same]
  · rw [same]
    rcases set_slot_cases world handle held.classId key with
      ⟨kept, -⟩ | ⟨id, object, slot, -, -, -, kept⟩
    · rw [kept]
    · rw [kept]
      rfl

/-- An object is counted when it is removed, not when its finalizer runs. -/
theorem total_run_finalizer (paired : world.Paired) (tidy : world.Tidy) (id : ObjectId) :
    (world.runFinalizer id).1.engine.finalized = world.engine.finalized := by
  rcases paired.finalizer_cases tidy id with ⟨same | same, -⟩ | ⟨bridge, key, state, -, same⟩
  · rw [same]
  · rw [same]
    rfl
  · rw [same]
    exact total_bind_handle world bridge (.object id) none

end Settings

section Counts

variable {before world after : World} {given more : ObjectId → Nat}

theorem Lowered.slot_key (lowered : Lowered before after given) (value : Value)
    (classId : ClassId) : after.slotKey? value classId = before.slotKey? value classId := by
  apply slot_key_of_kind
  cases value with
  | object id =>
      rw [kind_object, kind_object, lowered.objects]
      simp [Option.map_map, Function.comp_def]
  | _ => rfl

theorem Lowered.bound_state (lowered : Lowered before after given) (bridge : BridgeId)
    (handle : Value) : after.boundState bridge handle = before.boundState bridge handle :=
  bound_state_of_same (lowered.tables bridge) (lowered.slot_key handle)

theorem Lowered.state (lowered : Lowered before after given) (bridge : BridgeId) (key : Key) :
    after.state? bridge key = before.state? bridge key :=
  state_of_same (lowered.tables bridge) key

/-- The objects are the same, and only references that are not counted are given back. -/
theorem lowered_of_same (setting : SameSetting before after)
    (mode : after.engine.mode = before.engine.mode)
    (total : after.engine.finalized = before.engine.finalized)
    (objects : after.engine.heap = before.engine.heap)
    (tables : ∀ id, (after.bridge? id).map (fun bridge => (bridge.classId, bridge.states)) =
      (before.bridge? id).map fun bridge => (bridge.classId, bridge.states))
    (uncounted : ∀ id, before.references id = 0 ∨ given id = 0) : Lowered before after given where
  setting := setting
  mode := mode
  total := total
  objects := by
    intro id
    rw [objects]
    cases found : before.engine.heap.get? id with
    | none => rfl
    | some object =>
        have counts := references_of_get id found
        have same : object.refCount - given id = object.refCount := by
          rcases uncounted id with none | none
          · omega
          · omega
        rw [Option.map_some, same]
  tables := tables

theorem Lowered.refl (world : World) : Lowered world world fun _ => 0 :=
  lowered_of_same (.refl world) rfl rfl rfl (fun _ => rfl) fun _ => .inr rfl

theorem Lowered.trans (first : Lowered before world given) (last : Lowered world after more) :
    Lowered before after fun id => given id + more id where
  setting := first.setting.trans last.setting
  mode := last.mode.trans first.mode
  total := last.total.trans first.total
  objects := by
    intro id
    rw [last.objects, first.objects, Option.map_map]
    simp [Function.comp_def, Nat.sub_sub]
  tables := fun id => (last.tables id).trans (first.tables id)

theorem lowered_emit (world : World) (event : Event) :
    Lowered world (world.emit event) fun _ => 0 :=
  lowered_of_same (same_setting_emit world event) rfl rfl rfl (fun _ => rfl) fun _ => .inr rfl

theorem lowered_backlog (world : World) (backlog : Backlog ObjectId) :
    Lowered world { world with engine.backlog := backlog } fun _ => 0 :=
  lowered_of_same ⟨rfl, rfl, rfl, fun _ => rfl, rfl⟩ rfl rfl rfl (fun _ => rfl) fun _ => .inr rfl

theorem lowered_register (world : World) (name : String) (value : Value) :
    Lowered world (world.setRegister name value) fun _ => 0 :=
  lowered_of_same ⟨rfl, rfl, rfl, fun _ => rfl, rfl⟩ rfl rfl rfl (fun _ => rfl) fun _ => .inr rfl

theorem lowered_activity (world : World) (id : BridgeId) (active : Nat → Nat) :
    Lowered world
      (world.modifyBridge id fun bridge => { bridge with active := active bridge.active })
      fun _ => 0 := by
  refine lowered_of_same (same_setting_modify_bridge world id fun _ => ⟨rfl, rfl⟩) rfl rfl rfl ?_
    fun _ => .inr rfl
  intro other
  rw [bridge_modify]
  split
  · rename_i here
    subst here
    simp [Option.map_map, Function.comp_def]
  · rfl

theorem lowered_recount {id : ObjectId} {object : Object} {count : Nat}
    (found : world.engine.heap.get? id = some object) (counted : object.refCount = count + 1) :
    Lowered world (world.recount id object count)
      fun other => [Value.object id].count (.object other) where
  setting := same_setting_put world id _
  mode := rfl
  total := rfl
  objects := by
    intro other
    rw [count_object]
    by_cases same : other = id
    · subst same
      have written : (world.recount other object count).engine.heap.get? other =
          some { object with refCount := count } := Heap.get_put_same found _
      simp [written, found, counted]
    · have kept : (world.recount id object count).engine.heap.get? other =
          world.engine.heap.get? other := Heap.get_put_other _ same _
      simp [kept, same]
  tables := fun _ => rfl

/-- Giving a reference back takes it off the count, if it is counted. -/
theorem lowered_release (world : World) (value : Value) :
    Lowered world (world.release value).1 fun id => [value].count (.object id) := by
  cases value with
  | object id =>
      by_cases counted : 0 < world.references id
      · obtain ⟨object, count, found, last⟩ := object_of_references counted
        have lowered := lowered_recount found last
        rcases release_cases found last with ⟨-, same⟩ | ⟨-, -, same⟩ | ⟨-, same⟩
        · rw [same]
          exact lowered
        · rw [same]
          exact (lowered.trans (lowered_backlog _ _)).trans (lowered_emit _ _)
        · rw [same]
          exact lowered
      · have none := Nat.eq_zero_of_not_pos counted
        obtain ⟨event, same⟩ := release_of_unreferenced none
        rw [same]
        refine lowered_of_same (same_setting_emit world event) rfl rfl rfl (fun _ => rfl) ?_
        intro other
        rw [count_object]
        by_cases here : other = id
        · rw [here]
          exact .inl none
        · exact .inr (if_neg here)
  | _ =>
      exact lowered_of_same (.refl world) rfl rfl rfl (fun _ => rfl) fun id =>
        .inr (count_value_of_not_object (by simp) id)

end Counts

theorem carried_run_finalizer {world : World} (paired : world.Paired) (tidy : world.Tidy)
    (id : ObjectId) :
    (world.runFinalizer id).2.flatMap Task.carried = world.boundValues id := by
  rcases paired.finalizer_cases tidy id with
    ⟨same | same, unbound⟩ | ⟨bridge, key, state, bound, same⟩
  · rw [same, bound_values_of_unbound unbound]
    rfl
  · rw [same, bound_values_of_unbound unbound]
    rfl
  · rw [same, bound_values_of_bound paired bound]
    exact carried_drops state.held

section Sweeps

variable {before world after : World} {removed finalized : Finset ObjectId}
  {released given : ObjectId → Nat}

theorem Sweep.refl (paired : world.Paired) : Sweep world world ∅ ∅ fun _ => 0 where
  setting := .refl world
  mode := rfl
  total := by simp
  paired := paired
  within := fun _ member => member
  live := by simp
  gone := by simp
  kept := fun _ _ => ⟨fun kind => kind, Option.map_id'.symm, fun _ _ => rfl⟩
  bound := by simp
  tables := by simp

theorem Sweep.lower (sweep : Sweep before world removed finalized released)
    (lowered : Lowered world after given) :
    Sweep before after removed finalized fun id => released id + given id where
  setting := sweep.setting.trans lowered.setting
  mode := lowered.mode.trans sweep.mode
  total := lowered.total.trans sweep.total
  paired := sweep.paired.of_bridges lowered.tables lowered.slot_key
  within := sweep.within
  live := sweep.live
  gone := by
    intro id member
    rw [lowered.objects, sweep.gone id member]
    rfl
  kept := by
    intro id outside
    obtain ⟨rekind, found, same⟩ := sweep.kept id outside
    refine ⟨rekind, ?_, same⟩
    rw [lowered.objects, found, Option.map_map]
    simp [Function.comp_def, Nat.sub_sub]
  bound := by
    intro bridge id key state
    rw [lowered.bound_state]
    exact sweep.bound bridge id key state
  tables := by
    intro bridge key state
    rw [lowered.state]
    exact sweep.tables bridge key state

theorem Sweep.register (sweep : Sweep before world removed finalized released)
    (same : after = world ∨ ∃ register kept, after = world.setRegister register kept) :
    Sweep before after removed finalized released := by
  rcases same with rfl | ⟨register, kept, rfl⟩
  · exact sweep
  · exact sweep.lower (lowered_register world register kept)

theorem Sweep.found (sweep : Sweep before world removed finalized released) {id : ObjectId}
    {object : Object} (found : world.engine.heap.get? id = some object) :
    id ∉ removed ∧ ∃ old, before.engine.heap.get? id = some old ∧
      object.refCount = old.refCount - released id ∧ object.owned = old.owned := by
  have outside : id ∉ removed := by
    intro member
    rw [sweep.gone id member] at found
    cases found
  obtain ⟨rekind, same, -⟩ := sweep.kept id outside
  rw [found, eq_comm, Option.map_eq_some_iff] at same
  obtain ⟨old, reached, rfl⟩ := same
  exact ⟨outside, old, reached, rfl, rfl⟩

/-- What a handle is bound to stays as it is until the handle is finalized. -/
theorem Sweep.bound_values (sweep : Sweep before world removed finalized released)
    (paired : before.Paired) (id : ObjectId) :
    world.boundValues id = if id ∈ finalized then [] else before.boundValues id := by
  split
  · rename_i member
    apply bound_values_of_unbound
    intro bridge key state bound
    exact ((sweep.bound bridge id key state).1 bound).1 member
  · rename_i outside
    by_cases some : ∃ bridge key state, before.boundState bridge (.object id) = .ok (key, state)
    · obtain ⟨bridge, key, state, bound⟩ := some
      rw [bound_values_of_bound paired bound]
      exact bound_values_of_bound sweep.paired
        ((sweep.bound bridge id key state).2 ⟨outside, bound⟩)
    · have unbound : ∀ bridge key state,
          before.boundState bridge (.object id) ≠ .ok (key, state) :=
        fun bridge key state bound => some ⟨bridge, key, state, bound⟩
      rw [bound_values_of_unbound unbound]
      apply bound_values_of_unbound
      intro bridge key state bound
      exact unbound bridge key state ((sweep.bound bridge id key state).1 bound).2

theorem Sweep.finalize (sweep : Sweep before world removed finalized released) (tidy : world.Tidy)
    {id : ObjectId} {object : Object} (found : world.engine.heap.get? id = some object) :
    Sweep before (world.runFinalizer id).1 removed (insert id finalized) released where
  setting := sweep.setting.trans (same_setting_run_finalizer sweep.paired tidy id)
  mode := (run_finalizer_law tidy id).1.mode.trans sweep.mode
  total := (total_run_finalizer sweep.paired tidy id).trans sweep.total
  paired := paired_run_finalizer sweep.paired tidy id
  within := sweep.within.trans (Finset.subset_insert id finalized)
  live := by
    intro other member
    rcases Finset.mem_insert.1 member with same | old
    · obtain ⟨-, earlier, reached, -⟩ := sweep.found found
      simp [same, isAlive, object?, Value.object?, reached]
    · exact sweep.live other old
  gone := by
    intro other member
    obtain ⟨rekind, same, -⟩ := get_run_finalizer sweep.paired tidy id other
    rw [same, sweep.gone other member]
    rfl
  kept := by
    intro other outside
    obtain ⟨rekind, reached, same⟩ := sweep.kept other outside
    obtain ⟨unbind, now, elsewhere⟩ := get_run_finalizer sweep.paired tidy id other
    refine ⟨fun kind => unbind (rekind kind), ?_, ?_⟩
    · rw [now, reached, Option.map_map]
      rfl
    · intro spared kind
      rw [Finset.mem_insert, not_or] at spared
      change unbind (rekind kind) = kind
      rw [elsewhere spared.1, same spared.2]
  bound := by
    intro bridge other key state
    rw [bound_state_run_finalizer sweep.paired tidy, sweep.bound, Finset.mem_insert, not_or,
      and_assoc]
    simp
  tables := by
    intro bridge key state
    rw [state_run_finalizer sweep.paired tidy, sweep.tables, Finset.forall_mem_insert, ne_eq,
      sweep.bound]
    constructor
    · rintro ⟨⟨there, others⟩, unbound⟩
      refine ⟨there, ?_, others⟩
      intro bound
      by_cases early : id ∈ finalized
      · exact others id early bound
      · exact unbound ⟨early, bound⟩
    · rintro ⟨there, unbound, others⟩
      exact ⟨⟨there, others⟩, fun both => unbound both.2⟩

/-- An object that was finalized has no slot with a key any more. -/
theorem Sweep.slot_key (sweep : Sweep before world removed finalized released) {id : ObjectId}
    (member : id ∈ finalized) {bridgeId : BridgeId} {bridge : Bridge}
    (found : world.bridge? bridgeId = some bridge) :
    world.slotKey? (.object id) bridge.classId = none := by
  cases slot : world.slotKey? (.object id) bridge.classId with
  | none => rfl
  | some key =>
      have reached : world.boundKey bridgeId (.object id) = .ok key :=
        bound_key_eq_ok.2 ⟨bridge, found, slot⟩
      obtain ⟨state, held⟩ := sweep.paired.state_of_bound reached
      have bound := (sweep.bound bridgeId id key state).1 (bound_state_eq_ok_iff.2 ⟨reached, held⟩)
      exact absurd member bound.1

theorem slot_key_without (world : World) (id : ObjectId) (value : Value) (classId : ClassId) :
    (world.without id).slotKey? value classId =
      if value = .object id then none else world.slotKey? value classId := by
  have kinds : (world.without id).kind? value =
      if value = .object id then none else world.kind? value := by
    cases value with
    | object other =>
        rw [kind_object, kind_object]
        by_cases same : other = id
        · subst same
          simp [without]
        · have kept : (world.without id).engine.heap.get? other = world.engine.heap.get? other :=
            Heap.get_remove_other _ same
          simp [kept, same]
    | _ => simp [kind?, object?, Value.object?]
  rw [slot_key_eq, kinds]
  split
  · rfl
  · rw [slot_key_eq]

theorem Sweep.remove (sweep : Sweep before world removed finalized released) {id : ObjectId}
    (member : id ∈ finalized) {object : Object}
    (found : world.engine.heap.get? id = some object) :
    Sweep before (world.without id) (insert id removed) finalized released := by
  have present := (sweep.found found).1
  have slots : ∀ bridgeId bridge, world.bridge? bridgeId = some bridge → ∀ value,
      (world.without id).slotKey? value bridge.classId = world.slotKey? value bridge.classId := by
    intro bridgeId bridge reached value
    rw [slot_key_without]
    split
    · rename_i same
      rw [same, sweep.slot_key member reached]
    · rfl
  have states : ∀ bridge key, (world.without id).state? bridge key = world.state? bridge key :=
    fun _ _ => rfl
  have bound : ∀ bridge handle, (world.without id).boundState bridge handle =
      world.boundState bridge handle := by
    intro bridgeId handle
    unfold boundState boundKey
    cases reached : world.bridge? bridgeId with
    | none =>
        have missing : (world.without id).bridge? bridgeId = none := reached
        simp [missing]
    | some bridge =>
        have there : (world.without id).bridge? bridgeId = some bridge := reached
        simp [there, slots bridgeId bridge reached, states]
  refine ⟨sweep.setting.trans (same_setting_without world id), sweep.mode, ?_, ?_, ?_, sweep.live,
    ?_, ?_, ?_, sweep.tables⟩
  · rw [Finset.card_insert_of_notMem present]
    change world.engine.finalized + 1 = _
    rw [sweep.total]
    omega
  · refine ⟨?_, sweep.paired.apart⟩
    intro bridgeId bridge reached
    have agree := sweep.paired.agree bridgeId bridge reached
    exact agree.of_same (slots bridgeId bridge reached) (fun _ => rfl) agree.sound
  · exact Finset.insert_subset member sweep.within
  · intro other inside
    rcases Finset.mem_insert.1 inside with same | old
    · rw [same]
      exact Heap.get_remove_same _ id
    · by_cases same : other = id
      · rw [same]
        exact Heap.get_remove_same _ id
      · have kept : (world.without id).engine.heap.get? other = world.engine.heap.get? other :=
          Heap.get_remove_other _ same
        rw [kept]
        exact sweep.gone other old
  · intro other outside
    rw [Finset.mem_insert, not_or] at outside
    have kept : (world.without id).engine.heap.get? other = world.engine.heap.get? other :=
      Heap.get_remove_other _ outside.1
    rw [kept]
    exact sweep.kept other outside.2
  · intro bridge other key state
    rw [bound]
    exact sweep.bound bridge other key state

end Sweeps

end World

end ScriptSignal
