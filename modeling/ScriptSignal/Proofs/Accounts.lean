import ScriptSignal.Proofs.Counting
import ScriptSignal.Proofs.Effects

/-!
# Reference accounts

A counted reference is held in one of four places: in an object, by a class, in a table of
states, or by the client. For each object the references to it are tallied there. What its
count says over and above the tally is the object's surplus, which whoever else holds a
reference must account for. Every change to a world has a law for the surplus.
-/

namespace ScriptSignal

set_option autoImplicit false

def SignalState.values (state : SignalState) : List Value := state.held.map StrongRef.value

theorem SignalState.values_connected {state : SignalState} (empty : state.callback = none)
    (callback : Value) : (state.connected callback).values = [callback] ++ state.values := by
  simp [values, held, connected, empty]

theorem SignalState.values_cleared {state : SignalState} {callback : StrongRef}
    (connected : state.callback = some callback) :
    state.values = [callback.value] ++ state.cleared.values := by
  simp [values, held, cleared, connected]

namespace World

def objectReferences (world : World) : List Value :=
  world.engine.heap.places.toList.flatMap fun place => place.toList.flatMap Object.owned

def classReferences (world : World) : List Value :=
  world.engine.registry.classes.toList.flatMap fun entry =>
    entry.toList.map fun record => .object record.proto

def tableReferences (world : World) : List Value :=
  world.bridges.toList.flatMap fun bridge => bridge.states.entries.flatMap SignalState.values

def clientReferences (world : World) : List Value :=
  world.client.references.values.flatMap (fun held => [held.value])
    ++ world.client.states.values.flatMap SignalState.values

/-- The counted references to an object that the world itself holds. -/
def tally (world : World) (id : ObjectId) : Nat :=
  world.objectReferences.count (.object id) + world.classReferences.count (.object id)
    + world.tableReferences.count (.object id) + world.clientReferences.count (.object id)

def references (world : World) (id : ObjectId) : Nat :=
  (world.engine.heap.get? id).elim 0 Object.refCount

/-- The references to an object that are held elsewhere. -/
def surplus (world : World) (id : ObjectId) : Int := world.references id - world.tally id

theorem count_object (other id : ObjectId) :
    [Value.object other].count (.object id) = if id = other then 1 else 0 := by
  rw [List.count_singleton]
  by_cases same : id = other
  · simp [same]
  · have apart : ¬other = id := fun equal => same equal.symm
    simp [same, apart]

section Laws

variable {world : World} (id : ObjectId)

theorem place_of_get {heap : Heap} {place : ObjectId} {object : Object}
    (found : heap.get? place = some object) :
    heap.places.toList[place.index]? = some (some object) := by
  rw [Array.getElem?_toList]
  exact Option.join_eq_some_iff.1 found

theorem count_objects_put {place : ObjectId} {old : Object}
    (found : world.engine.heap.get? place = some old) (new : Object) :
    (world.putObject place new).objectReferences.count (.object id)
        + old.owned.count (.object id) =
      world.objectReferences.count (.object id) + new.owned.count (.object id) := by
  unfold objectReferences putObject Heap.put
  rw [Array.toList_setIfInBounds]
  have moved := count_flat_map_set (place_of_get found) (some new)
    (fun place => place.toList.flatMap Object.owned) (.object id)
  simpa using moved

theorem references_put {place : ObjectId} {old : Object}
    (found : world.engine.heap.get? place = some old) (new : Object) :
    (world.putObject place new).references id =
      if id = place then new.refCount else world.references id := by
  unfold references
  by_cases same : id = place
  · subst same
    rw [show (world.putObject id new).engine.heap.get? id = some new from
      Heap.get_put_same found new]
    simp
  · rw [show (world.putObject place new).engine.heap.get? id = world.engine.heap.get? id from
      Heap.get_put_other _ same new]
    simp [same]

theorem references_of_get {object : Object} (found : world.engine.heap.get? id = some object) :
    world.references id = object.refCount := by
  simp [references, found]

theorem surplus_write {place : ObjectId} {old new : Object}
    (found : world.engine.heap.get? place = some old) (same : new.refCount = old.refCount) :
    (world.putObject place new).surplus id =
      world.surplus id + old.owned.count (.object id) - new.owned.count (.object id) := by
  have objects := count_objects_put id found new
  have counts : (world.putObject place new).references id = world.references id := by
    rw [references_put id found]
    split
    · rename_i here
      subst here
      rw [same, references_of_get _ found]
    · rfl
  unfold surplus tally
  rw [counts]
  have classes : (world.putObject place new).classReferences = world.classReferences := rfl
  have tables : (world.putObject place new).tableReferences = world.tableReferences := rfl
  have client : (world.putObject place new).clientReferences = world.clientReferences := rfl
  rw [classes, tables, client]
  omega

theorem surplus_recount {place : ObjectId} {old : Object}
    (found : world.engine.heap.get? place = some old) (count : Nat) :
    (world.putObject place { old with refCount := count }).surplus id =
      world.surplus id + if id = place then (count : Int) - old.refCount else 0 := by
  have objects := count_objects_put id found { old with refCount := count }
  have owned : Object.owned { old with refCount := count } = old.owned := rfl
  rw [owned] at objects
  have same : (world.putObject place { old with refCount := count }).tally id
      = world.tally id := by
    unfold tally
    rw [Nat.add_right_cancel objects]
    rfl
  unfold surplus
  rw [same, references_put id found]
  by_cases here : id = place
  · subst here
    rw [references_of_get _ found]
    simp only [if_true]
    omega
  · simp [here]

@[simp] theorem surplus_emit (event : Event) : (world.emit event).surplus id = world.surplus id :=
  rfl

theorem surplus_duplicate {value : Value} (alive : ∀ place, value = .object place →
    world.isAlive value = true) :
    (world.duplicate value).surplus id = world.surplus id + [value].count (.object id) := by
  cases value with
  | object place =>
      obtain ⟨other, object, same, found⟩ := object_of_alive (alive place rfl)
      cases same
      have moved := surplus_recount id found (object.refCount + 1)
      simp only [duplicate, found]
      rw [moved, count_object]
      split
      · omega
      · rfl
  | _ => simp [duplicate]

theorem references_next : world.references world.engine.heap.nextId = 0 := by
  have beyond : world.engine.heap.get? world.engine.heap.nextId = none :=
    Heap.get_eq_none_of_size_le (Nat.le_refl _)
  simp [references, beyond]

theorem references_allocate (kind : ObjectKind) (proto : Option ObjectId) :
    (world.allocate kind proto).references id =
      world.references id + if id = world.engine.heap.nextId then 1 else 0 := by
  by_cases new : id = world.engine.heap.nextId
  · subst new
    rw [references_next]
    have made : (world.allocate kind proto).engine.heap.get? world.engine.heap.nextId =
        some ⟨1, kind, proto, .empty⟩ := Heap.get_alloc_same _ kind proto
    simp [references, made]
  · have kept : (world.allocate kind proto).engine.heap.get? id = world.engine.heap.get? id :=
      Heap.get_alloc_other _ kind proto new
    simp [references, kept, new]

/-- A new object has one reference that nobody holds yet, and holds its prototype. -/
theorem surplus_allocate (kind : ObjectKind) (proto : Option ObjectId) :
    (world.allocate kind proto).surplus id =
      world.surplus id + [world.nextValue].count (.object id)
        - (proto.toList.map Value.object).count (.object id) := by
  have objects : (world.allocate kind proto).objectReferences =
      world.objectReferences ++ proto.toList.map Value.object := by
    unfold objectReferences allocate Heap.alloc
    simp [Object.owned, NameMap.values, NameMap.empty]
  have fresh : [world.nextValue].count (.object id) =
      if id = world.engine.heap.nextId then 1 else 0 := count_object _ id
  unfold surplus tally
  rw [objects, List.count_append, references_allocate, fresh]
  have classes : (world.allocate kind proto).classReferences = world.classReferences := rfl
  have tables : (world.allocate kind proto).tableReferences = world.tableReferences := rfl
  have client : (world.allocate kind proto).clientReferences = world.clientReferences := rfl
  rw [classes, tables, client]
  omega

theorem next_duplicate (value : Value) : (world.duplicate value).nextValue = world.nextValue := by
  cases value with
  | object place =>
      cases found : world.engine.heap.get? place with
      | none => simp [duplicate, found, nextValue, emit]
      | some object => simp [duplicate, found, nextValue, putObject, Heap.put, Heap.nextId]
  | _ => rfl

theorem surplus_allocate_instance (proto : Value) (classId : ClassId) :
    (world.allocateInstance proto classId).surplus id =
      world.surplus id + [world.nextValue].count (.object id) := by
  unfold allocateInstance
  split
  · rename_i alive
    rw [surplus_allocate, next_duplicate, surplus_duplicate id (fun _ _ => alive)]
    obtain ⟨place, object, rfl, found⟩ := object_of_alive alive
    simp only [Value.object?, Option.toList_some, List.map_cons, List.map_nil]
    omega
  · rw [surplus_allocate]
    simp

theorem surplus_set_slot (value : Value) (classId : ClassId) (key : Option Key) :
    (world.setSlot value classId key).surplus id = world.surplus id := by
  rcases set_slot_cases world value classId key with
    ⟨same, -⟩ | ⟨place, object, slot, -, found, -, same⟩
  · rw [same]
  · let changed : Object := { object with kind := .native classId (key.map Key.toBits) }
    have written := @surplus_write world id place object changed found rfl
    have owned : changed.owned = object.owned := rfl
    rw [owned] at written
    rw [same, written]
    omega

theorem surplus_bind_handle (bridge : BridgeId) (handle : Value) (key : Option Key) :
    (world.bindHandle bridge handle key).surplus id = world.surplus id := by
  rcases bind_handle_cases world bridge handle key with same | ⟨held, -, same⟩
  · rw [same]
  · rw [same]
    exact surplus_set_slot id handle held.classId key

omit id in
theorem count_tables_modify {place : BridgeId} {bridge : Bridge}
    (found : world.bridge? place = some bridge) (change : Bridge → Bridge) (value : Value) :
    (world.modifyBridge place change).tableReferences.count value
        + (bridge.states.entries.flatMap SignalState.values).count value =
      world.tableReferences.count value
        + ((change bridge).states.entries.flatMap SignalState.values).count value := by
  have listed : world.bridges.toList[place.index]? = some bridge := by
    rw [Array.getElem?_toList]
    exact found
  unfold tableReferences modifyBridge
  rw [Array.toList_modify, List.modify_eq_set_getElem?, listed]
  exact count_flat_map_set listed (change bridge)
    (fun bridge => bridge.states.entries.flatMap SignalState.values) value

theorem surplus_modify_bridge {place : BridgeId} {bridge : Bridge}
    (found : world.bridge? place = some bridge) (change : Bridge → Bridge) :
    (world.modifyBridge place change).surplus id =
      world.surplus id + (bridge.states.entries.flatMap SignalState.values).count (.object id)
        - ((change bridge).states.entries.flatMap SignalState.values).count (.object id) := by
  have tables := count_tables_modify found change (.object id)
  have objects : (world.modifyBridge place change).objectReferences =
      world.objectReferences := rfl
  have classes : (world.modifyBridge place change).classReferences = world.classReferences := rfl
  have client : (world.modifyBridge place change).clientReferences =
      world.clientReferences := rfl
  have counts : (world.modifyBridge place change).references id = world.references id := rfl
  unfold surplus tally
  rw [objects, classes, client, counts]
  omega

theorem surplus_activity (place : BridgeId) (active : Nat → Nat) :
    (world.modifyBridge place fun bridge => { bridge with active := active bridge.active }).surplus
      id = world.surplus id := by
  cases found : world.bridge? place with
  | none => rw [modify_missing_bridge found]
  | some bridge =>
      rw [surplus_modify_bridge id found]
      dsimp only
      omega

theorem bridge_of_state {place : BridgeId} {key : Key} {state : SignalState}
    (held : world.state? place key = some state) :
    ∃ bridge, world.bridge? place = some bridge ∧ bridge.states.get? key = some state :=
  Option.bind_eq_some_iff.1 held

theorem surplus_set_state {place : BridgeId} {key : Key} {old : SignalState}
    (held : world.state? place key = some old) (new : SignalState) :
    (world.modifyStates place fun states => states.set key new).surplus id =
      world.surplus id + old.values.count (.object id) - new.values.count (.object id) := by
  obtain ⟨bridge, found, reached⟩ := bridge_of_state held
  have moved := Slab.count_set reached new SignalState.values (.object id)
  unfold modifyStates
  rw [surplus_modify_bridge id found]
  dsimp only
  omega

theorem surplus_erase_state {place : BridgeId} {key : Key} {old : SignalState}
    (held : world.state? place key = some old) :
    (world.modifyStates place fun states => states.erase key).surplus id =
      world.surplus id + old.values.count (.object id) := by
  obtain ⟨bridge, found, reached⟩ := bridge_of_state held
  have moved := Slab.count_erase reached SignalState.values (.object id)
  unfold modifyStates
  rw [surplus_modify_bridge id found]
  dsimp only
  omega

theorem surplus_insert_state {place : BridgeId} {bridge : Bridge}
    (found : world.bridge? place = some bridge) (sound : bridge.states.Sound)
    (state : SignalState) :
    (world.modifyStates place fun states => states.insert state).surplus id =
      world.surplus id - state.values.count (.object id) := by
  have moved := Slab.count_insert sound state SignalState.values (.object id)
  unfold modifyStates
  rw [surplus_modify_bridge id found]
  dsimp only
  omega

theorem surplus_define {classId : ClassId}
    (vacant : world.engine.registry.checkOpen classId = .ok ()) (definition : ClassDefinition) :
    (world.defineClass classId definition).surplus id = world.surplus id := by
  have listed : world.engine.registry.classes.toList[classId.number.toNat]? = some none := by
    rw [Array.getElem?_toList]
    exact Registry.check_open_eq_ok.1 vacant
  have moved := count_flat_map_set listed
    (some (Registry.made definition world.engine.heap.nextId))
    (fun entry => entry.toList.map fun record => Value.object record.proto) (.object id)
  let registered : World :=
    { world with
      engine.registry := world.engine.registry.define classId definition world.engine.heap.nextId }
  have classes : registered.classReferences.count (.object id) =
      world.classReferences.count (.object id) + [world.nextValue].count (.object id) := by
    unfold classReferences
    simp only [registered, Registry.define, Array.toList_setIfInBounds]
    simp only [Option.toList_none, Option.toList_some, List.map_nil, List.map_cons,
      List.count_nil, Nat.add_zero] at moved
    exact moved
  have allocated := @surplus_allocate registered id .plain none
  have same : (world.defineClass classId definition).surplus id =
      (registered.allocate .plain none).surplus id := rfl
  have objects : registered.objectReferences = world.objectReferences := rfl
  have tables : registered.tableReferences = world.tableReferences := rfl
  have client : registered.clientReferences = world.clientReferences := rfl
  have counts : registered.references id = world.references id := rfl
  have next : registered.nextValue = world.nextValue := rfl
  rw [same, allocated, next]
  unfold surplus tally
  rw [objects, tables, client, counts, classes]
  simp only [Option.toList_none, List.map_nil, List.count_nil]
  omega

theorem surplus_add_bridge (classId : ClassId) (config : Config) (installed : Bool) :
    (world.addBridge classId config installed).surplus id = world.surplus id := by
  have tables : (world.addBridge classId config installed).tableReferences =
      world.tableReferences := by
    unfold tableReferences addBridge
    simp [Slab.entries, Slab.empty]
  unfold surplus tally
  rw [tables]
  rfl

theorem surplus_reserve : world.reserveClass.surplus id = world.surplus id := by
  have classes : world.reserveClass.classReferences = world.classReferences := by
    unfold classReferences reserveClass Registry.reserve
    simp
  unfold surplus tally
  rw [classes]
  rfl

theorem surplus_client (client : Client) :
    ({ world with client } : World).surplus id =
      world.surplus id + world.clientReferences.count (.object id)
        - ({ world with client } : World).clientReferences.count (.object id) := by
  have objects : ({ world with client } : World).objectReferences = world.objectReferences := rfl
  have classes : ({ world with client } : World).classReferences = world.classReferences := rfl
  have tables : ({ world with client } : World).tableReferences = world.tableReferences := rfl
  have counts : ({ world with client } : World).references id = world.references id := rfl
  unfold surplus tally
  rw [objects, classes, tables, counts]
  omega

theorem surplus_insert_reference (name : String) (held : StrongRef) :
    ({ world with
        client.references := world.client.references.insert name held } : World).surplus id =
      world.surplus id
        + (((world.client.references.find? name).toList.map StrongRef.value).count (.object id))
        - [held.value].count (.object id) := by
  have moved := NameMap.count_insert world.client.references name held
    (fun held => [held.value]) (.object id)
  rw [surplus_client]
  simp only [clientReferences, List.count_append]
  simp only [← List.map_eq_flatMap] at moved ⊢
  omega

theorem surplus_erase_reference (distinct : world.client.references.Distinct) (name : String) :
    ({ world with
        client.references := world.client.references.erase name } : World).surplus id =
      world.surplus id
        + ((world.client.references.find? name).toList.map StrongRef.value).count
          (.object id) := by
  have moved := NameMap.count_erase distinct name (fun held => [held.value]) (.object id)
  rw [surplus_client]
  simp only [clientReferences, List.count_append]
  simp only [← List.map_eq_flatMap] at moved ⊢
  omega

theorem surplus_put_state (name : String) (state : SignalState) :
    (world.putState name state).surplus id =
      world.surplus id
        + ((world.client.states.find? name).toList.flatMap SignalState.values).count (.object id)
        - state.values.count (.object id) := by
  have moved := NameMap.count_insert world.client.states name state SignalState.values
    (.object id)
  unfold putState
  rw [surplus_client]
  simp only [clientReferences, List.count_append]
  omega

theorem surplus_erase_own_state (distinct : world.client.states.Distinct) (name : String) :
    ({ world with client.states := world.client.states.erase name } : World).surplus id =
      world.surplus id
        + ((world.client.states.find? name).toList.flatMap SignalState.values).count
          (.object id) := by
  have moved := NameMap.count_erase distinct name SignalState.values (.object id)
  rw [surplus_client]
  simp only [clientReferences, List.count_append]
  omega

end Laws

end World

end ScriptSignal
