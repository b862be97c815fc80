import ScriptSignal.Proofs.Agreement
import ScriptSignal.Proofs.Settling

/-!
# What native code has in hand

A strong reference is acquired before it is stored and taken out before it is given back. In
between it is in nobody's table: native code has it in hand. So are the bridges that a name of
the client let go and the direct calls that have begun. Each operation is a row of small moves
of a world with what is in hand, and in the end all of it is on the agenda. This holds for
scripts and clients of every kind, and of values whether they were allocated or not.
-/

namespace ScriptSignal

set_option autoImplicit false

def Event.Aside : Event → Prop
  | .acquired _ | .released _ | .hostGone _ => False
  | _ => True

def Command.Inscribes : Command → Prop
  | .object (.setSlot _ _ _) | .object (.finalizeNow _) | .classes .reserve
  | .bridge (.install _ _) | .bridge (.finalize _ _) => True
  | _ => False

namespace World

def Installed (world : World) (id : BridgeId) : Prop :=
  ∃ bridge, world.bridge? id = some bridge ∧ bridge.installed = true

end World

/-- A function enters no bridge, or one that classes hold. -/
def NativeFunction.Served (world : World) : NativeFunction → Prop
  | .signal bridge _ => world.Installed bridge
  | .script _ => True

structure ClassRecord.Served (world : World) (record : ClassRecord) : Prop where
  constructor : record.constructor.Served world
  methods : ∀ name function, record.methods.find? name = some function → function.Served world

structure Client.Distinct (client : Client) : Prop where
  bridges : client.bridges.Distinct
  references : client.references.Distinct
  states : client.states.Distinct

/-- A world with the strong references, the bridges without a name and the direct calls that
native code has in hand. -/
structure Grasp where
  world : World
  held : List Value
  left : List BridgeId
  calls : List BridgeId

/-- What is done in one piece. References change hands one by one, as the counts say. Classes and
the slots of handles are written only where something may be inscribed. -/
inductive Move (inscribes : Prop) (grasp : Grasp) : Grasp → Prop
  | emit {event : Event} (aside : event.Aside) :
      Move inscribes grasp { grasp with world := grasp.world.emit event }
  | acquire (value : Value) (running : grasp.world.engine.running = true) :
      Move inscribes grasp
        { grasp with world := grasp.world.emit (.acquired value), held := value :: grasp.held }
  | put {id : ObjectId} {object changed : Object}
      (found : grasp.world.engine.heap.get? id = some object)
      (counted : object.refCount ≤ changed.refCount) (proto : changed.proto = object.proto)
      (kind : changed.kind = object.kind ∨ inscribes) :
      Move inscribes grasp { grasp with world := grasp.world.putObject id changed }
  | allocate {kind : ObjectKind} {proto : Option ObjectId}
      (running : grasp.world.engine.running = true)
      (unbound : kind.Unbound grasp.world.engine.registry)
      (older : ∀ id ∈ proto, id.index < grasp.world.size) :
      Move inscribes grasp { grasp with world := grasp.world.allocate kind proto }
  | register {registry : Registry} (inscribed : inscribes)
      (running : grasp.world.engine.running = true)
      (served : ∀ classId record, registry.record? classId = some record →
        grasp.world.engine.registry.record? classId = some record ∨ record.Served grasp.world) :
      Move inscribes grasp { grasp with world.engine.registry := registry }
  | addBridge (classId : ClassId) (config : Config) (installed : Bool) :
      Move inscribes grasp { grasp with world := grasp.world.addBridge classId config installed }
  | beginCall {id : BridgeId} (named : id ∈ grasp.world.client.bridges.values) :
      Move inscribes grasp
        { grasp with world := grasp.world.beginCall id, calls := id :: grasp.calls }
  | table {id : BridgeId} {change : Slab SignalState → Slab SignalState} {held : List Value}
      (sound : ∀ states : Slab SignalState, states.Sound → (change states).Sound)
      (owned : grasp.world.holdsBridge id = true ∨ ∃ key, (grasp.world.state? id key).isSome)
      (kept : ∀ bridge, grasp.world.bridge? id = some bridge →
        (grasp.world.holdsBridge id = true → bridge.states.Sound) → ∀ value,
          ((change bridge.states).entries.flatMap SignalState.values).count value
              + held.count value =
            (bridge.states.entries.flatMap SignalState.values).count value
              + grasp.held.count value) :
      Move inscribes grasp { grasp with world := grasp.world.modifyStates id change, held }
  | client {client : Client} {held : List Value} {left : List BridgeId}
      (distinct : grasp.world.client.Distinct → client.Distinct)
      (kept : grasp.world.client.Distinct → ∀ value,
        ({ grasp.world with client } : World).clientReferences.count value + held.count value =
          grasp.world.clientReferences.count value + grasp.held.count value)
      (stays : grasp.world.client.Distinct → ∀ id ∈ grasp.world.client.bridges.values,
        id ∈ client.bridges.values ∨ id ∈ left)
      (waits : ∀ id ∈ grasp.left, id ∈ left)
      (known : ∀ id ∈ client.bridges.values, id ∈ grasp.world.client.bridges.values ∨
        ∃ bridge, grasp.world.bridge? id = some bridge ∧ bridge.states.Sound) :
      Move inscribes grasp { grasp with world.client := client, held, left }

abbrev Moves (inscribes : Prop) : Grasp → Grasp → Prop :=
  Relation.ReflTransGen (Move inscribes)

variable {inscribes : Prop}

theorem Moves.running {grasp after : Grasp} (moves : Moves inscribes grasp after) :
    after.world.engine.running = grasp.world.engine.running := by
  induction moves with
  | refl => rfl
  | tail _ move induction =>
      rw [← induction]
      cases move <;> rfl

/-- A bridge stays what it is but for its states, and no call on it ends. -/
theorem Move.bridge {grasp after : Grasp} (move : Move inscribes grasp after) {id : BridgeId}
    {bridge : Bridge} (found : grasp.world.bridge? id = some bridge) :
    ∃ later, after.world.bridge? id = some later ∧ later.installed = bridge.installed ∧
      bridge.active ≤ later.active := by
  cases move with
  | addBridge classId config installed =>
      have apart : id ≠ grasp.world.nextBridge := by
        rintro rfl
        rw [World.bridge_next] at found
        cases found
      refine ⟨bridge, ?_, rfl, Nat.le_refl _⟩
      change (grasp.world.addBridge classId config installed).bridge? id = some bridge
      rw [World.bridge_add, if_neg apart, found]
  | @beginCall place named =>
      change ∃ later, (grasp.world.beginCall place).bridge? id = some later ∧ _
      rw [World.beginCall, World.bridge_modify]
      split
      · rename_i same
        subst same
        exact ⟨{ bridge with active := bridge.active + 1 }, by simp [found], rfl, Nat.le_succ _⟩
      · exact ⟨bridge, found, rfl, Nat.le_refl _⟩
  | @table place change held sound owned kept =>
      change ∃ later, (grasp.world.modifyStates place change).bridge? id = some later ∧ _
      rw [World.modifyStates, World.bridge_modify]
      split
      · rename_i same
        subst same
        exact ⟨{ bridge with states := change bridge.states }, by simp [found], rfl,
          Nat.le_refl _⟩
      · exact ⟨bridge, found, rfl, Nat.le_refl _⟩
  | _ => exact ⟨bridge, found, rfl, Nat.le_refl _⟩

theorem Moves.installed {grasp after : Grasp} (moves : Moves inscribes grasp after) {id : BridgeId}
    (installed : grasp.world.Installed id) : after.world.Installed id := by
  induction moves with
  | refl => exact installed
  | tail _ move induction =>
      obtain ⟨bridge, found, holds⟩ := induction
      obtain ⟨later, reached, same, -⟩ := move.bridge found
      exact ⟨later, reached, same.trans holds⟩

namespace Task

/-- The strong references that a task is to give back or to store. -/
def clutched : Task → List Value
  | .drop held => [held.value]
  | .bind _ _ _ link => link.toList.map StrongRef.value
  | _ => []

def settled : Task → List BridgeId
  | .settle bridge => [bridge]
  | _ => []

def ended : Task → List BridgeId
  | .endCall bridge => [bridge]
  | _ => []

def Tame : Task → Prop
  | .report event => event.Aside
  | .reclaim _ | .remove _ | .drain _ | .reportCollection _ | .leave _ _ | .perform _
  | .iterate _ _ => False
  | _ => True

end Task

/-- Where a state is bound next, classes hold the bridge, or a call on it is under way that
began before or ends later. -/
def Guarded (world : World) (begun : List BridgeId) (tasks : List Task) : Prop :=
  ∀ early id route handle link late, tasks = early ++ .bind id route handle link :: late →
    world.Installed id ∨ id ∈ late.flatMap Task.ended ++ begun

/-- An operation that came with these references in hand leaves all to its tasks. -/
structure Outcome.Moves (inscribes : Prop) (before : World) (clutched : List Value)
    (begun : List BridgeId)
    (outcome : Outcome) : Prop where
  moves : ∀ held left calls, ScriptSignal.Moves inscribes ⟨before, clutched ++ held, left, calls⟩
    ⟨outcome.1, outcome.2.flatMap Task.clutched ++ held, outcome.2.flatMap Task.settled ++ left,
      outcome.2.flatMap Task.ended ++ calls⟩
  tame : ∀ task ∈ outcome.2, task.Tame
  guarded : Guarded outcome.1 begun outcome.2

section Tasks

variable (references : List StrongRef) (values : List Value)

@[simp] theorem clutched_drops :
    (references.map Task.drop).flatMap Task.clutched = references.map StrongRef.value := by
  induction references with
  | nil => rfl
  | cons held rest induction => simp [Task.clutched, induction]

@[simp] theorem settled_drops : (references.map Task.drop).flatMap Task.settled = [] := by
  simp [Task.settled]

@[simp] theorem ended_drops : (references.map Task.drop).flatMap Task.ended = [] := by
  simp [Task.ended]

end Tasks

theorem guarded_of_no_binds {world : World} {begun : List BridgeId} {tasks : List Task}
    (none : ∀ task ∈ tasks, ¬task.Binds) : Guarded world begun tasks := by
  rintro early id route handle link late rfl
  exact absurd trivial (none (.bind id route handle link) (by simp))

namespace NameMap

variable {α : Type} [DecidableEq α] {map : NameMap α} {entry other : α}

theorem mem_values_of_insert {name : String} (member : other ∈ (map.insert name entry).values) :
    other = entry ∨ other ∈ map.values := by
  have moved := count_insert map name entry (fun entry => [entry]) other
  simp only [List.flatMap_singleton', List.count_singleton] at moved
  have stored := List.count_pos_iff.2 member
  by_cases same : other = entry
  · exact .inl same
  · have apart : ¬(entry == other) = true := by simp [Ne.symm same]
    rw [if_neg apart] at moved
    exact .inr (List.count_pos_iff.1 (by omega))

theorem mem_insert_or_replaced (name : String) (entry : α) (member : other ∈ map.values) :
    other ∈ (map.insert name entry).values ∨ map.find? name = some other := by
  have moved := count_insert map name entry (fun entry => [entry]) other
  simp only [List.flatMap_singleton'] at moved
  have stored := List.count_pos_iff.2 member
  by_cases replaced : other ∈ (map.find? name).toList
  · exact .inr (by simpa using replaced)
  · rw [List.count_eq_zero.2 replaced] at moved
    exact .inl (List.count_pos_iff.1 (by omega))

omit [DecidableEq α] in
theorem mem_values_of_erase {name : String} (member : other ∈ (map.erase name).values) :
    other ∈ map.values := by
  obtain ⟨pair, kept, rfl⟩ := List.mem_map.1 member
  exact List.mem_map.2 ⟨pair, (List.mem_filter.1 kept).1, rfl⟩

theorem mem_erase_or_erased (distinct : map.Distinct) (name : String)
    (member : other ∈ map.values) :
    other ∈ (map.erase name).values ∨ map.find? name = some other := by
  have moved := count_erase distinct name (fun entry => [entry]) other
  simp only [List.flatMap_singleton'] at moved
  have stored := List.count_pos_iff.2 member
  by_cases erased : other ∈ (map.find? name).toList
  · exact .inr (by simpa using erased)
  · rw [List.count_eq_zero.2 erased] at moved
    exact .inl (List.count_pos_iff.1 (by omega))

end NameMap

namespace World

section Moves

variable {world : World} {held : List Value} {left calls : List BridgeId}

theorem moves_emit {event : Event} (aside : event.Aside) :
    Moves inscribes ⟨world, held, left, calls⟩ ⟨world.emit event, held, left, calls⟩ :=
  .single (.emit aside)

theorem moves_duplicate (value : Value) :
    Moves inscribes ⟨world, held, left, calls⟩ ⟨world.duplicate value, held, left, calls⟩ := by
  cases value with
  | object id =>
      cases found : world.engine.heap.get? id with
      | none =>
          simp only [duplicate, found]
          exact moves_emit trivial
      | some object =>
          simp only [duplicate, found]
          exact .single (.put found (Nat.le_succ object.refCount) rfl (.inl rfl))
  | _ => exact .refl

theorem moves_acquire (running : world.engine.running = true) (value : Value) :
    Moves inscribes ⟨world, held, left, calls⟩ ⟨world.acquire value, value :: held, left, calls⟩ :=
  (moves_duplicate value).tail
    (.acquire value
      ((@moves_duplicate inscribes world held left calls value).running.trans running))

theorem moves_allocate (running : world.engine.running = true) {kind : ObjectKind}
    (unbound : kind.Unbound world.engine.registry) :
    Moves inscribes ⟨world, held, left, calls⟩ ⟨world.allocate kind none, held, left, calls⟩ :=
  .single (.allocate running unbound (by simp))

theorem moves_allocate_instance (running : world.engine.running = true) (proto : Value)
    {classId : ClassId} (defined : world.isDefined classId = true) :
    Moves inscribes ⟨world, held, left, calls⟩
      ⟨world.allocateInstance proto classId, held, left, calls⟩ := by
  have counted := @moves_duplicate inscribes world held left calls proto
  have persists := (changes_duplicate world proto).persists
  unfold allocateInstance
  split
  · rename_i alive
    refine counted.tail (.allocate (counted.running.trans running) ⟨rfl, ?_⟩ ?_)
    · obtain ⟨record, found⟩ := Option.isSome_iff_exists.1 defined
      exact Option.isSome_iff_exists.2 ⟨record, persists.records classId record found⟩
    · intro id same
      obtain ⟨place, object, rfl, found⟩ := object_of_alive alive
      cases same
      exact Nat.lt_of_lt_of_le (Heap.index_lt_of_get found) persists.size
  · exact moves_allocate running ⟨rfl, defined⟩

theorem moves_set_slot (inscribed : inscribes) (value : Value) (classId : ClassId)
    (key : Option Key) :
    Moves inscribes ⟨world, held, left, calls⟩
      ⟨world.setSlot value classId key, held, left, calls⟩ := by
  rcases set_slot_cases world value classId key with
    ⟨same, -⟩ | ⟨id, object, slot, -, found, -, same⟩
  · rw [same]
  · rw [same]
    exact .single (.put found (Nat.le_refl _) rfl (.inr inscribed))

theorem moves_bind_handle (inscribed : inscribes) (id : BridgeId) (handle : Value)
    (key : Option Key) :
    Moves inscribes ⟨world, held, left, calls⟩
      ⟨world.bindHandle id handle key, held, left, calls⟩ := by
  rcases bind_handle_cases world id handle key with same | ⟨bridge, -, same⟩
  · rw [same]
  · rw [same]
    exact moves_set_slot inscribed handle bridge.classId key

theorem moves_reserve (inscribed : inscribes) (running : world.engine.running = true) :
    Moves inscribes ⟨world, held, left, calls⟩ ⟨world.reserveClass, held, left, calls⟩ := by
  refine .single (.register inscribed running ?_)
  intro classId record found
  rw [Registry.record_reserve] at found
  exact .inl found

theorem moves_define (inscribed : inscribes) (running : world.engine.running = true)
    {classId : ClassId}
    (vacant : world.engine.registry.checkOpen classId = .ok ()) {definition : ClassDefinition}
    (constructor : definition.constructor.Served world)
    (methods : ∀ pair ∈ definition.methods, pair.2.Served world) :
    Moves inscribes ⟨world, held, left, calls⟩
      ⟨world.defineClass classId definition, held, left, calls⟩ := by
  have registered : Moves inscribes ⟨world, held, left, calls⟩
      ⟨{ world with
          engine.registry :=
            world.engine.registry.define classId definition world.engine.heap.nextId },
        held, left, calls⟩ := by
    refine .single (.register inscribed running ?_)
    intro other record found
    rw [Registry.record_define vacant] at found
    split at found
    · cases found
      refine .inr ⟨constructor, ?_⟩
      intro name function method
      obtain ⟨pair, member, rfl⟩ := NameMap.mem_of_find_of_list method
      exact methods pair member
    · exact .inl found
  have plain : ObjectKind.plain.Unbound
      (world.engine.registry.define classId definition world.engine.heap.nextId) := trivial
  exact (registered.tail (.allocate running plain (by simp))).trans (moves_emit trivial)

theorem count_hand (first : Value) (held : List Value) (value : Value) :
    (first :: held).count value = [first].count value + held.count value := by
  rw [← List.count_append]
  rfl

/-- Over a state another is written, and the hand is changed to match. -/
theorem moves_write_state {id : BridgeId} {key : Key} {state changed : SignalState}
    {after : List Value} (found : world.state? id key = some state)
    (kept : ∀ value, changed.values.count value + after.count value =
      state.values.count value + held.count value) :
    Moves inscribes ⟨world, held, left, calls⟩
      ⟨world.modifyStates id fun states => states.set key changed, after, left, calls⟩ := by
  have owned : ∃ key, (world.state? id key).isSome := ⟨key, by simp [found]⟩
  refine .single (.table (fun states sound => Slab.sound_set sound key changed) (.inr owned) ?_)
  intro bridge reached _ value
  have entry : bridge.states.get? key = some state := by simpa [state?, reached] using found
  have moved := Slab.count_set entry changed SignalState.values value
  have balance := kept value
  dsimp only
  omega

theorem moves_take_state {id : BridgeId} {key : Key} {state : SignalState}
    (found : world.state? id key = some state) :
    Moves inscribes ⟨world, held, left, calls⟩
      ⟨world.modifyStates id fun states => states.erase key, state.values ++ held, left,
        calls⟩ := by
  have owned : ∃ key, (world.state? id key).isSome := ⟨key, by simp [found]⟩
  refine .single (.table (fun states sound => Slab.sound_erase sound key) (.inr owned) ?_)
  intro bridge reached _ value
  have entry : bridge.states.get? key = some state := by simpa [state?, reached] using found
  have moved := Slab.count_erase entry SignalState.values value
  rw [List.count_append]
  dsimp only
  omega

theorem moves_store_state {id : BridgeId} (holds : world.holdsBridge id = true)
    (state : SignalState) :
    Moves inscribes ⟨world, state.values ++ held, left, calls⟩
      ⟨world.modifyStates id fun states => states.insert state, held, left, calls⟩ := by
  refine .single (.table (fun states sound => Slab.sound_insert sound state) (.inl holds) ?_)
  intro bridge reached sound value
  have moved := Slab.count_insert (sound holds) state SignalState.values value
  rw [List.count_append]
  omega

theorem moves_client {client : Client} {after : List Value}
    (distinct : world.client.Distinct → client.Distinct)
    (kept : world.client.Distinct → ∀ value,
      ({ world with client } : World).clientReferences.count value + after.count value =
        world.clientReferences.count value + held.count value)
    (bridges : client.bridges = world.client.bridges) :
    Moves inscribes ⟨world, held, left, calls⟩ ⟨{ world with client }, after, left, calls⟩ := by
  refine .single (.client distinct kept ?_ (fun id member => member) ?_)
  · intro _ id member
    exact .inl (bridges ▸ member)
  · intro id member
    exact .inl (bridges ▸ member)

theorem moves_registers (registers : NameMap Value) :
    Moves inscribes ⟨world, held, left, calls⟩
      ⟨{ world with client.registers := registers }, held, left, calls⟩ :=
  moves_client (fun distinct => ⟨distinct.bridges, distinct.references, distinct.states⟩)
    (fun _ _ => rfl) rfl

theorem moves_store_bridge (name : String) {id : BridgeId}
    (present : ∃ bridge, world.bridge? id = some bridge ∧ bridge.states.Sound) :
    Moves inscribes ⟨world, held, left, calls⟩
      ⟨{ world with client.bridges := world.client.bridges.insert name id }, held,
        (world.client.bridges.find? name).toList ++ left, calls⟩ := by
  refine .single (.client ?_ (fun _ _ => rfl) ?_
    (fun other member => List.mem_append_right _ member) ?_)
  · intro distinct
    exact ⟨NameMap.distinct_insert distinct.bridges name id, distinct.references, distinct.states⟩
  · intro _ other member
    rcases NameMap.mem_insert_or_replaced name id member with stays | replaced
    · exact .inl stays
    · exact .inr (List.mem_append_left _ (by simp [replaced]))
  · intro other member
    rcases NameMap.mem_values_of_insert member with rfl | old
    · exact .inr present
    · exact .inl old

theorem moves_drop_bridge (name : String) :
    Moves inscribes ⟨world, held, left, calls⟩
      ⟨{ world with client.bridges := world.client.bridges.erase name }, held,
        (world.client.bridges.find? name).toList ++ left, calls⟩ := by
  refine .single (.client ?_ (fun _ _ => rfl) ?_
    (fun other member => List.mem_append_right _ member) ?_)
  · intro distinct
    exact ⟨NameMap.distinct_erase distinct.bridges name, distinct.references, distinct.states⟩
  · intro distinct other member
    rcases NameMap.mem_erase_or_erased distinct.bridges name member with stays | erased
    · exact .inl stays
    · exact .inr (List.mem_append_left _ (by simp [erased]))
  · intro other member
    exact .inl (NameMap.mem_values_of_erase member)

theorem moves_store_reference (name : String) (reference : StrongRef) :
    Moves inscribes ⟨world, reference.value :: held, left, calls⟩
      ⟨{ world with client.references := world.client.references.insert name reference },
        (world.client.references.find? name).toList.map StrongRef.value ++ held, left,
        calls⟩ := by
  refine moves_client ?_ ?_ rfl
  · intro distinct
    exact ⟨distinct.bridges, NameMap.distinct_insert distinct.references name reference,
      distinct.states⟩
  · intro _ value
    have moved := NameMap.count_insert world.client.references name reference
      (fun held => [held.value]) value
    rw [List.count_append, List.map_eq_flatMap, count_hand reference.value held]
    simp only [clientReferences, List.count_append]
    omega

theorem moves_erase_reference (name : String) :
    Moves inscribes ⟨world, held, left, calls⟩
      ⟨{ world with client.references := world.client.references.erase name },
        (world.client.references.find? name).toList.map StrongRef.value ++ held, left,
        calls⟩ := by
  refine moves_client ?_ ?_ rfl
  · intro distinct
    exact ⟨distinct.bridges, NameMap.distinct_erase distinct.references name, distinct.states⟩
  · intro distinct value
    have moved := NameMap.count_erase distinct.references name (fun held => [held.value]) value
    rw [List.count_append, List.map_eq_flatMap]
    simp only [clientReferences, List.count_append]
    omega

/-- A state is stored under a name, and the hand is changed to match. -/
theorem moves_put_state (name : String) {state : SignalState} {after : List Value}
    (kept : ∀ value, state.values.count value + after.count value =
      ((world.client.states.find? name).toList.flatMap SignalState.values).count value
        + held.count value) :
    Moves inscribes ⟨world, held, left, calls⟩ ⟨world.putState name state, after, left, calls⟩ := by
  refine moves_client ?_ ?_ rfl
  · intro distinct
    exact ⟨distinct.bridges, distinct.references,
      NameMap.distinct_insert distinct.states name state⟩
  · intro _ value
    have moved := NameMap.count_insert world.client.states name state SignalState.values value
    have balance := kept value
    simp only [clientReferences, List.count_append]
    omega

theorem moves_erase_state (name : String) :
    Moves inscribes ⟨world, held, left, calls⟩
      ⟨{ world with client.states := world.client.states.erase name },
        (world.client.states.find? name).toList.flatMap SignalState.values ++ held, left,
        calls⟩ := by
  refine moves_client ?_ ?_ rfl
  · intro distinct
    exact ⟨distinct.bridges, distinct.references, NameMap.distinct_erase distinct.states name⟩
  · intro distinct value
    have moved := NameMap.count_erase distinct.states name SignalState.values value
    rw [List.count_append]
    simp only [clientReferences, List.count_append]
    omega

end Moves

end World

section Operations

variable {before : World} {clutched : List Value} {begun : List BridgeId}

def Task.Bare (task : Task) : Prop :=
  task.Tame ∧ task.clutched = [] ∧ task.settled = [] ∧ task.ended = [] ∧ ¬task.Binds

theorem flat_map_of_bare {tasks : List Task} (bare : ∀ task ∈ tasks, task.Bare) :
    tasks.flatMap Task.clutched = [] ∧ tasks.flatMap Task.settled = [] ∧
      tasks.flatMap Task.ended = [] :=
  ⟨List.flatMap_eq_nil_iff.2 fun task member => (bare task member).2.1,
    List.flatMap_eq_nil_iff.2 fun task member => (bare task member).2.2.1,
    List.flatMap_eq_nil_iff.2 fun task member => (bare task member).2.2.2.1⟩

theorem bare_answer (reply : Reply) : (Task.answer reply).Bare :=
  ⟨trivial, rfl, rfl, rfl, fun binds => binds⟩

theorem bare_finish (label : String) : (Task.finish label).Bare :=
  ⟨trivial, rfl, rfl, rfl, fun binds => binds⟩

theorem Guarded.append {world : World} {tasks more : List Task}
    (guarded : Guarded world (more.flatMap Task.ended ++ begun) tasks)
    (later : Guarded world begun more) : Guarded world begun (tasks ++ more) := by
  intro early id route handle link late same
  rcases List.append_eq_append_iff.1 same with ⟨middle, first, second⟩ | ⟨middle, first, second⟩
  · exact later middle id route handle link late second
  · cases middle with
    | nil =>
        rw [List.nil_append] at second
        exact later [] id route handle link late second.symm
    | cons task rest =>
        simp only [List.cons_append, List.cons.injEq] at second
        obtain ⟨rfl, rfl⟩ := second
        rw [List.flatMap_append, List.append_assoc]
        exact guarded early id route handle link rest first

theorem Guarded.cons {world : World} {task : Task} {tasks : List Task}
    (guarded : Guarded world begun tasks) (free : ¬task.Binds) :
    Guarded world begun (task :: tasks) := by
  intro early id route handle link late same
  cases early with
  | nil =>
      cases same
      exact absurd trivial free
  | cons first early =>
      cases same
      exact guarded early id route handle link late rfl

theorem Outcome.Moves.append {outcome : Outcome}
    (moves : outcome.Moves inscribes before clutched begun)
    {more : List Task} (bare : ∀ task ∈ more, task.Bare) :
    Outcome.Moves inscribes before clutched begun (outcome.1, outcome.2 ++ more) := by
  obtain ⟨hands, settles, ends⟩ := flat_map_of_bare bare
  have guarded := moves.guarded
  rw [← List.nil_append begun, ← ends] at guarded
  refine ⟨?_, ?_, guarded.append (guarded_of_no_binds fun task member =>
    (bare task member).2.2.2.2)⟩
  · intro held left calls
    have moved := moves.moves held left calls
    simp only [List.flatMap_append, hands, settles, ends, List.append_nil]
    exact moved
  · intro task member
    rcases List.mem_append.1 member with early | late
    · exact moves.tame task early
    · exact (bare task late).1

theorem Outcome.Moves.last {outcome : Outcome}
    (moves : outcome.Moves inscribes before clutched begun)
    {task : Task} (bare : task.Bare) :
    Outcome.Moves inscribes before clutched begun (outcome.1, outcome.2 ++ [task]) :=
  moves.append fun _ member => List.mem_singleton.1 member ▸ bare

theorem Outcome.Moves.first {middle : World} {taken : List Value} {outcome : Outcome}
    (moved : ∀ held left calls, ScriptSignal.Moves inscribes ⟨before, clutched ++ held, left, calls⟩
      ⟨middle, taken ++ held, left, calls⟩) (later : outcome.Moves inscribes middle taken begun) :
    outcome.Moves inscribes before clutched begun :=
  ⟨fun held left calls => (moved held left calls).trans (later.moves held left calls), later.tame,
    later.guarded⟩

theorem Outcome.Moves.cons {after : World} {tasks : List Task}
    (moves : Outcome.Moves inscribes before clutched begun (after, tasks)) {task : Task}
    (bare : task.Bare) :
    Outcome.Moves inscribes before clutched begun (after, task :: tasks) := by
  obtain ⟨tame, hands, settles, ends, free⟩ := bare
  refine ⟨?_, ?_, moves.guarded.cons free⟩
  · intro held left calls
    simp only [List.flatMap_cons, hands, settles, ends, List.nil_append]
    exact moves.moves held left calls
  · intro other member
    rcases List.mem_cons.1 member with rfl | later
    · exact tame
    · exact moves.tame other later

theorem moves_of_bare {after : World} {tasks : List Task}
    (moved : ∀ held left calls, Moves inscribes ⟨before, clutched ++ held, left, calls⟩
      ⟨after, held, left, calls⟩) (bare : ∀ task ∈ tasks, task.Bare) :
    Outcome.Moves inscribes before clutched begun (after, tasks) := by
  obtain ⟨hands, settles, ends⟩ := flat_map_of_bare bare
  refine ⟨?_, fun task member => (bare task member).1,
    guarded_of_no_binds fun task member => (bare task member).2.2.2.2⟩
  intro held left calls
  simp only [hands, settles, ends, List.nil_append]
  exact moved held left calls

theorem moves_done {after : World} (moved : ∀ held left calls,
      Moves inscribes ⟨before, clutched ++ held, left, calls⟩ ⟨after, held, left, calls⟩)
    (reply : Reply) :
    Outcome.Moves inscribes before clutched begun (after.done reply) :=
  moves_of_bare moved fun task member => by
    cases List.mem_singleton.1 member
    exact bare_answer reply

theorem moves_nothing (reply : Reply) :
    Outcome.Moves inscribes before [] begun (before.done reply) :=
  moves_done (fun _ _ _ => .refl) reply

theorem moves_drops {after : World} (references : List StrongRef)
    (moved : ∀ held left calls, Moves inscribes ⟨before, clutched ++ held, left, calls⟩
      ⟨after, references.map StrongRef.value ++ held, left, calls⟩) :
    Outcome.Moves inscribes before clutched begun (after, references.map Task.drop) := by
  refine ⟨?_, by simp [Task.Tame], guarded_of_no_binds (by simp [Task.Binds])⟩
  intro held left calls
  simp only [clutched_drops, settled_drops, ended_drops, List.nil_append]
  exact moved held left calls

theorem bare_report {event : Event} (aside : event.Aside) : (Task.report event).Bare :=
  ⟨aside, rfl, rfl, rfl, fun binds => binds⟩

theorem bare_release (value : Value) : (Task.release value).Bare :=
  ⟨trivial, rfl, rfl, rfl, fun binds => binds⟩

theorem Outcome.Moves.after {after : World} {tasks : List Task}
    (moves : Outcome.Moves inscribes before clutched begun (after, tasks)) (reply : Reply) :
    Outcome.Moves inscribes before clutched begun (after.after tasks reply) :=
  moves.last (bare_answer reply)

end Operations

namespace World

section Entry

variable {world : World} {begun : List BridgeId}

theorem moves_give (found : Except Failure Value) :
    Outcome.Moves inscribes world [] begun (world.give found) := by
  cases found with
  | error failure => exact moves_nothing _
  | ok value => exact moves_done (fun _ _ _ => moves_duplicate value) _

theorem moves_instantiate (running : world.engine.running = true) (proto : Value)
    (classId : ClassId) :
    Outcome.Moves inscribes world [] begun (world.instantiate proto classId) := by
  unfold instantiate
  split
  · rename_i defined
    exact moves_done (fun _ _ _ => moves_allocate_instance running proto defined) _
  · exact moves_nothing _

theorem moves_set_property (target : Value) (key : String) (value : Value) :
    Outcome.Moves inscribes world [] begun (world.setProperty target key value) := by
  have returned : Outcome.Moves inscribes world [] begun (world, [.release value]) :=
    moves_of_bare (fun _ _ _ => .refl) (by simp [bare_release])
  cases target with
  | object id =>
      simp only [setProperty]
      split
      · rename_i object found
        refine Outcome.Moves.after (moves_of_bare ?_ ?_) _
        · exact fun held left calls => .single (.put found (Nat.le_refl _) rfl (.inl rfl))
        · intro task member
          obtain ⟨replaced, -, rfl⟩ := List.mem_map.1 member
          exact bare_release replaced
      · exact returned.after _
  | _ => exact returned.after _

theorem moves_construct_linked (running : world.engine.running = true) {id : BridgeId}
    (served : world.Installed id ∨ id ∈ begun) (route : Route) (target : Value)
    (link : Option StrongRef) :
    Outcome.Moves inscribes world (link.toList.map StrongRef.value) begun
      (world.constructLinked id route target link) := by
  unfold constructLinked
  dsimp only
  split
  · exact (moves_drops link.toList fun _ _ _ => .refl).after _
  · rename_i proto found
    have running : (world.duplicate proto).engine.running = true :=
      (@moves_duplicate inscribes world [] [] [] proto).running.trans running
    split
    · have unlink : Outcome.Moves inscribes world (link.toList.map StrongRef.value) begun
          (world.duplicate proto, link.toList.map Task.drop) :=
        moves_drops link.toList fun _ _ _ => moves_duplicate proto
      exact (unlink.cons (bare_release proto)).after _
    · rename_i classId ofClass
      have defined := (Option.filter_eq_some_iff.1 ofClass).2
      have moved : ∀ held left calls, Moves inscribes ⟨world, held, left, calls⟩
          ⟨(world.duplicate proto).allocateInstance proto classId, held, left, calls⟩ :=
        fun _ _ _ => (moves_duplicate proto).trans (moves_allocate_instance running proto defined)
      refine ⟨?_, by simp [Task.Tame], ?_⟩
      · intro held left calls
        simpa [Task.clutched, Task.settled, Task.ended] using moved _ left calls
      · intro early other route handle link late same
        rcases early with _ | ⟨task, _ | ⟨next, early⟩⟩
        · cases same
        · cases same
          rcases served with installed | under
          · exact .inl ((moved [] [] []).installed installed)
          · exact .inr under
        · simp at same

theorem moves_construct_signal (running : world.engine.running = true) {id : BridgeId}
    (served : world.Installed id ∨ id ∈ begun) (route : Route) (target : Value)
    (arguments : List Value) :
    Outcome.Moves inscribes world [] begun (world.constructSignal id route target arguments) := by
  have unlinked : Outcome.Moves inscribes world [] begun
      (world.constructLinked id route target none) :=
    moves_construct_linked running served route target none
  unfold constructSignal
  split
  · exact unlinked
  · exact unlinked
  · rename_i object
    have acquired : ∀ held left calls, Moves inscribes ⟨world, [] ++ held, left, calls⟩
        ⟨world.acquire (.object object), [.object object] ++ held, left, calls⟩ :=
      fun _ _ _ => moves_acquire running (.object object)
    have first := acquired [] [] []
    refine Outcome.Moves.first acquired (moves_construct_linked (first.running.trans running) ?_
      route target (some ⟨.object object⟩))
    exact served.imp_left first.installed
  · exact moves_nothing _
  · exact moves_nothing _

theorem moves_bind_signal (inscribed : inscribes) {id : BridgeId}
    (holds : world.holdsBridge id = true) (route : Route) (handle : Value)
    (link : Option StrongRef) :
    Outcome.Moves inscribes world (link.toList.map StrongRef.value) begun
      (world.bindSignal id route handle link) := by
  unfold bindSignal
  split
  · rename_i key reached
    dsimp only
    refine moves_done ?_ _
    intro held left calls
    have stored : Moves inscribes ⟨world, link.toList.map StrongRef.value ++ held, left, calls⟩
        ⟨world.modifyStates id fun states => states.insert ⟨none, link⟩, held, left, calls⟩ :=
      moves_store_state holds ⟨none, link⟩
    exact (stored.trans (moves_bind_handle inscribed id handle (some key))).trans
      (moves_emit trivial)
  · exact (moves_drops link.toList fun _ _ _ => .refl).after _

theorem moves_connect (running : world.engine.running = true) (id : BridgeId) (route : Route)
    (handle : Value) (arguments : List Value) :
    Outcome.Moves inscribes world [] begun (world.connect id route handle arguments) := by
  unfold connect
  split
  · rename_i callback
    split
    · exact moves_nothing _
    · rename_i key state found
      obtain ⟨-, bound, -, empty⟩ := bound_state_of_connectable found
      have reached : (world.acquire callback).state? id key = some state :=
        (changes_acquire world callback).state (state_of_bound_state bound).2
      dsimp only
      refine moves_done ?_ _
      intro held left calls
      have acquired := @moves_acquire inscribes world held left calls running callback
      refine (acquired.trans (moves_write_state reached ?_)).trans (moves_emit trivial)
      intro value
      rw [SignalState.values_connected empty, List.count_append, count_hand callback held]
      omega
  · exact moves_nothing _

theorem moves_disconnect_token (id : BridgeId) (route : Route) (handle : Value) (token : Int32) :
    Outcome.Moves inscribes world [] begun (world.disconnectToken id route handle token) := by
  unfold disconnectToken
  split
  · exact moves_nothing _
  · split
    · exact moves_nothing _
    · rename_i key bound
      have emitted : ∀ held left calls, Moves inscribes ⟨world, [] ++ held, left, calls⟩
          ⟨world.emit (.disconnecting key token), held, left, calls⟩ :=
        fun _ _ _ => moves_emit trivial
      dsimp only
      split
      · exact moves_done emitted _
      · rename_i state reached
        split
        · exact moves_done emitted _
        · rename_i callback connected
          have reached : (world.emit (.disconnecting key token)).state? id key = some state :=
              reached
          have moved : ∀ held left calls, Moves inscribes ⟨world, [] ++ held, left, calls⟩
              ⟨(world.emit (.disconnecting key token)).modifyStates id fun states =>
                  states.set key state.cleared,
                [callback.value] ++ held, left, calls⟩ := by
            intro held left calls
            refine (emitted held left calls).trans (moves_write_state reached ?_)
            intro value
            rw [SignalState.values_cleared connected, List.count_append, List.count_append]
            omega
          have drops : Outcome.Moves inscribes world [] begun (_, [.drop callback]) :=
            moves_drops [callback] moved
          have told : (Event.disconnected key).Aside := trivial
          exact (drops.last (bare_report told)).after _

theorem moves_disconnect (id : BridgeId) (route : Route) (handle : Value)
    (arguments : List Value) :
    Outcome.Moves inscribes world [] begun (world.disconnect id route handle arguments) := by
  unfold disconnect
  split
  · split
    · exact moves_disconnect_token id route handle _
    · exact moves_nothing _
  · exact moves_nothing _

theorem moves_is_empty (id : BridgeId) (route : Route) (handle : Value)
    (arguments : List Value) :
    Outcome.Moves inscribes world [] begun (world.isEmpty id route handle arguments) := by
  unfold isEmpty
  split <;> exact moves_nothing _

theorem moves_enter_signal (running : world.engine.running = true) {id : BridgeId}
    (served : world.Installed id ∨ id ∈ begun) (entry : Entry) (route : Route) (receiver : Value)
    (arguments : List Value) :
    Outcome.Moves inscribes world [] begun
      (world.enterSignal id entry route receiver arguments) := by
  cases entry with
  | construct => exact moves_construct_signal running served route receiver arguments
  | connect => exact moves_connect running id route receiver arguments
  | disconnect => exact moves_disconnect id route receiver arguments
  | isEmpty => exact moves_is_empty id route receiver arguments
  | toString => exact moves_nothing _

theorem moves_finalize_signal (inscribed : inscribes) (id : BridgeId) (handle : Value) :
    Outcome.Moves inscribes world [] begun (world.finalizeSignal id handle) := by
  rcases finalize_signal_cases world id handle with
    ⟨same, -⟩ | ⟨key, state, -, reached, same⟩ | ⟨key, -, -, same⟩
  · rw [same]
    exact moves_of_bare (fun _ _ _ => moves_emit trivial) (by simp)
  · rw [same]
    apply moves_drops state.held
    intro held left calls
    have unbound : (world.bindHandle id handle none).state? id key = some state := by
      rw [state_bind_handle]
      exact reached
    exact ((moves_bind_handle inscribed id handle none).trans (moves_take_state unbound)).trans
      (moves_emit trivial)
  · rw [same]
    exact moves_of_bare (fun _ _ _ => (moves_bind_handle inscribed id handle none).trans
      (moves_emit trivial)) (by simp)

theorem bare_enter (body : Body) (receiver : Value) (arguments : List Value) (purpose : Purpose) :
    (Task.enter body receiver arguments purpose).Bare :=
  ⟨trivial, rfl, rfl, rfl, fun binds => binds⟩

theorem moves_run_finalizer (inscribed : inscribes) (id : ObjectId) :
    Outcome.Moves inscribes world [] begun (world.runFinalizer id) := by
  unfold runFinalizer
  split
  · exact moves_of_bare (fun _ _ _ => .refl) (by simp)
  · split
    · exact moves_finalize_signal inscribed _ _
    · exact moves_of_bare (fun _ _ _ => .refl) (by simp [bare_enter])

theorem moves_finalize_now (inscribed : inscribes) (value : Value) :
    Outcome.Moves inscribes world [] begun (world.finalizeNow value) := by
  cases value with
  | object id => exact moves_run_finalizer inscribed id
  | _ => exact moves_of_bare (fun _ _ _ => .refl) (by simp)

end Entry

section Calls

variable {world : World}

theorem moves_call (running : world.engine.running = true) {function : NativeFunction}
    (served : function.Served world) (receiver : Value) (arguments : List Value) :
    Outcome.Moves inscribes world [] [] (world.call function receiver arguments) := by
  cases function with
  | signal bridge entry =>
      exact moves_enter_signal running (.inl served) entry .script receiver arguments
  | script body => exact moves_of_bare (fun _ _ _ => .refl) (by simp [bare_enter])

def Served (world : World) : Prop :=
  ∀ classId record, world.engine.registry.record? classId = some record → record.Served world

theorem Served.offers (served : world.Served) {function : NativeFunction}
    (offers : world.Offers function) : function.Served world := by
  obtain ⟨classId, record, defined, rfl | ⟨name, method⟩⟩ := offers
  · exact (served classId record defined).constructor
  · exact (served classId record defined).methods name function method

end Calls

section Holding

variable {world : World}

/-- A bridge is stored under a name, and the one that had the name before is let go. -/
theorem moves_store_bridge_under {before : World} (moved : ∀ held left calls,
      Moves inscribes ⟨before, held, left, calls⟩ ⟨world, held, left, calls⟩) (name : String)
      {id : BridgeId}
    (present : ∃ bridge, world.bridge? id = some bridge ∧ bridge.states.Sound) (reply : Reply) :
    Outcome.Moves inscribes before [] [] (world.storeBridge name id reply) := by
  unfold storeBridge
  dsimp only
  refine Outcome.Moves.after ⟨?_, by simp [Task.Tame], guarded_of_no_binds (by simp [Task.Binds])⟩ _
  intro held left calls
  have stored := (moved held left calls).trans (moves_store_bridge name present)
  cases replaced : world.client.bridges.find? name with
  | none => simpa [replaced] using stored
  | some old => simpa [replaced, Task.clutched, Task.settled, Task.ended] using stored

theorem moves_install_bridge (inscribed : inscribes) (running : world.engine.running = true)
    (name : String) (config : Config) :
    Outcome.Moves inscribes world [] [] (world.installBridge name config) := by
  unfold installBridge
  dsimp only
  have reserved : ∀ held left calls, Moves inscribes ⟨world, held, left, calls⟩
      ⟨world.reserveClass, held, left, calls⟩ := fun _ _ _ => moves_reserve inscribed running
  split
  · exact moves_done reserved _
  · rename_i vacant
    have present : (world.reserveClass.addBridge world.engine.registry.nextId config true).bridge?
        world.nextBridge = some ⟨world.engine.registry.nextId, config, .empty, true, 0⟩ := by
      rw [bridge_add]
      exact if_pos rfl
    have served : (world.reserveClass.addBridge world.engine.registry.nextId config
        true).Installed world.nextBridge := ⟨_, present, rfl⟩
    refine moves_store_bridge_under ?_ name ?_ _
    · intro held left calls
      have added := (reserved held left calls).tail
        (.addBridge world.engine.registry.nextId config true)
      have functions : ∀ pair ∈ (BridgeId.definition world.nextBridge).methods, pair.2.Served
          (world.reserveClass.addBridge world.engine.registry.nextId config true) := by
        simp [BridgeId.definition, NativeFunction.Served, served]
      have defined := @moves_define inscribes
        (world.reserveClass.addBridge world.engine.registry.nextId config true) held left calls
        inscribed running _ vacant world.nextBridge.definition served functions
      exact (added.trans defined).trans (moves_emit trivial)
    · exact ⟨_, present, Slab.sound_empty⟩

theorem moves_create_bridge (name : String) (classId : ClassId) (config : Config) :
    Outcome.Moves inscribes world [] [] (world.createBridge name classId config) := by
  refine moves_store_bridge_under (fun _ _ _ => .single (.addBridge classId config false)) name ?_ _
  rw [bridge_add, if_pos rfl]
  exact ⟨_, rfl, Slab.sound_empty⟩

theorem moves_drop_named_bridge (name : String) :
    Outcome.Moves inscribes world [] [] (world.dropBridge name) := by
  unfold dropBridge
  split
  · exact moves_nothing _
  · rename_i id found
    refine Outcome.Moves.after ⟨?_, by simp [Task.Tame], guarded_of_no_binds
      (by simp [Task.Binds])⟩ _
    intro held left calls
    have dropped := @moves_drop_bridge inscribes world held left calls name
    rw [found] at dropped
    exact dropped

/-- What is done in a direct call leaves its tasks before the end of the call. -/
theorem moves_during_call {id : BridgeId} (named : id ∈ world.client.bridges.values)
    {outcome : Outcome} {more : List Task}
    (moves : outcome.Moves inscribes (world.beginCall id) [] [id])
    (bare : ∀ task ∈ more, task.Bare) :
    Outcome.Moves inscribes world [] [] (outcome.1, outcome.2 ++ more ++ [.endCall id]) := by
  have inside := moves.append bare
  refine ⟨?_, ?_, ?_⟩
  · intro held left calls
    have began :
        Move inscribes ⟨world, held, left, calls⟩ ⟨world.beginCall id, held, left, id :: calls⟩ :=
      .beginCall named
    have done := (Relation.ReflTransGen.single began).trans (inside.moves held left (id :: calls))
    simpa [Task.clutched, Task.settled, Task.ended] using done
  · intro task member
    rcases List.mem_append.1 member with early | last
    · exact inside.tame task early
    · cases List.mem_singleton.1 last
      trivial
  · exact Guarded.append inside.guarded (guarded_of_no_binds (by simp [Task.Binds]))

theorem moves_enter_bridge (running : world.engine.running = true) {id : BridgeId}
    (named : id ∈ world.client.bridges.values) (entry : Entry) (receiver : Value)
    (arguments : List Value) :
    Outcome.Moves inscribes world [] [] (world.enterBridge id entry receiver arguments) := by
  have runs : (world.beginCall id).engine.running = true := running
  have entered : Outcome.Moves inscribes (world.beginCall id) [] [id]
      ((world.beginCall id).enterSignal id entry .direct receiver arguments) :=
    moves_enter_signal runs (.inr List.mem_cons_self) entry .direct receiver arguments
  have done := @moves_during_call inscribes world id named _ [] entered (by simp)
  rw [List.append_nil] at done
  exact done

theorem moves_finalize_through (inscribed : inscribes) {id : BridgeId}
    (named : id ∈ world.client.bridges.values) (handle : Value) :
    Outcome.Moves inscribes world [] [] (world.finalizeThrough id handle) := by
  have finalized : Outcome.Moves inscribes (world.beginCall id) [] [id]
      ((world.beginCall id).finalizeSignal id handle) :=
    moves_finalize_signal inscribed id handle
  have done := moves_during_call named finalized fun task member =>
    List.mem_singleton.1 member ▸ bare_answer .nothing
  rw [List.append_assoc] at done
  exact done

/-- A reference in hand is stored under a name, and the one that had the name before is given
back. -/
theorem moves_store_reference_under {before : World} {reference : StrongRef}
    (moved : ∀ held left calls, Moves inscribes ⟨before, held, left, calls⟩
      ⟨world, reference.value :: held, left, calls⟩) (name : String) (reply : Reply) :
    Outcome.Moves inscribes before [] [] (world.storeReference name reference reply) :=
  Outcome.Moves.after (moves_drops _ fun held left calls =>
    (moved held left calls).trans (moves_store_reference name reference)) reply

theorem moves_acquire_reference (running : world.engine.running = true) (name : String)
    (value : Value) :
    Outcome.Moves inscribes world [] [] (world.acquireReference name value) :=
  moves_store_reference_under (fun _ _ _ => moves_acquire running value) name .nothing

theorem moves_drop_named_reference (name : String) :
    Outcome.Moves inscribes world [] [] (world.dropNamedReference name) := by
  unfold dropNamedReference
  split
  · exact moves_nothing _
  · rename_i reference found
    refine Outcome.Moves.after (moves_drops [reference] ?_) _
    intro held left calls
    have erased := @moves_erase_reference inscribes world held left calls name
    rw [found] at erased
    exact erased

theorem drops_eq_map (states : List SignalState) :
    (states.flatMap fun state => state.held.map Task.drop) =
      (states.flatMap SignalState.held).map Task.drop := by
  rw [List.map_flatMap]

theorem values_of_states (states : List SignalState) :
    (states.flatMap SignalState.held).map StrongRef.value =
      states.flatMap SignalState.values := by
  rw [List.map_flatMap]
  rfl

/-- A state is made of a link in hand, and the one that had the name before is given back. -/
theorem moves_put_linked {before : World} {link : Option StrongRef}
    (moved : ∀ held left calls, Moves inscribes ⟨before, held, left, calls⟩
      ⟨world, link.toList.map StrongRef.value ++ held, left, calls⟩) (name : String) :
    Outcome.Moves inscribes before [] [] ((world.putState name ⟨none, link⟩).after
      ((world.client.states.find? name).toList.flatMap fun state => state.held.map .drop)
      .nothing) := by
  rw [drops_eq_map]
  refine Outcome.Moves.after (moves_drops _ ?_) _
  intro held left calls
  refine (moved held left calls).trans (moves_put_state name ?_)
  intro value
  have link : (⟨none, link⟩ : SignalState).values = link.toList.map StrongRef.value := rfl
  rw [link, values_of_states, List.count_append, List.count_append]
  omega

theorem moves_create_state (name : String) (link : Option String) :
    Outcome.Moves inscribes world [] [] (world.createState name link) := by
  cases link with
  | none => exact @moves_put_linked inscribes world world none (fun _ _ _ => .refl) name
  | some link => exact moves_put_linked (fun _ _ _ => moves_erase_reference link) name

theorem moves_set_state_callback (running : world.engine.running = true) (name : String)
    (callback : Value) :
    Outcome.Moves inscribes world [] [] (world.setStateCallback name callback) := by
  unfold setStateCallback
  split
  · exact moves_nothing _
  · rename_i state found
    split
    · rename_i empty
      refine moves_done ?_ _
      intro held left calls
      have acquired := @moves_acquire inscribes world held left calls running callback
      have reached : (world.acquire callback).client.states.find? name = some state := by
        rw [client_acquire, found]
      refine acquired.trans (moves_put_state name ?_)
      intro value
      rw [reached, Option.toList_some, List.flatMap_singleton, SignalState.values_connected empty,
        List.count_append, count_hand callback held]
      omega
    · exact moves_nothing _

theorem moves_clear_state (name : String) (keep : Option String) :
    Outcome.Moves inscribes world [] [] (world.clearState name keep) := by
  unfold clearState
  split
  · exact moves_nothing _
  · rename_i state found
    split
    · exact moves_nothing _
    · rename_i callback connected
      have cleared : ∀ held left calls, Moves inscribes ⟨world, held, left, calls⟩
          ⟨world.putState name state.cleared, callback.value :: held, left, calls⟩ := by
        intro held left calls
        refine moves_put_state name ?_
        intro value
        rw [found, Option.toList_some, List.flatMap_singleton,
          SignalState.values_cleared connected, List.count_append, count_hand callback.value held]
        omega
      dsimp only
      split
      · exact moves_store_reference_under cleared _ _
      · exact Outcome.Moves.after (moves_drops [callback] cleared) _

theorem moves_drop_state (name : String) :
    Outcome.Moves inscribes world [] [] (world.dropState name) := by
  unfold dropState
  split
  · exact moves_nothing _
  · rename_i state found
    refine Outcome.Moves.after (moves_drops state.held ?_) _
    intro held left calls
    have erased := @moves_erase_state inscribes world held left calls name
    rw [found, Option.toList_some, List.flatMap_singleton] at erased
    exact erased

end Holding

section Commands

variable {world : World} (read : Operand → Value)

theorem moves_shut_down (stopped : world.engine.running = false) :
    Outcome.Moves inscribes world [] [] world.shutDown := by
  simp only [shutDown, stopped, Bool.false_eq_true, if_false]
  exact moves_nothing _

theorem moves_undertake (served : world.Served) {command : Command} {errand : Errand}
    (account : world.Account read command errand)
    (runs : command.needsEngine = true → world.engine.running = true)
    (collects : command ≠ .object .collect)
    (ends : command = .shutDown → world.engine.running = false)
    (inscribed : command.Inscribes → inscribes) :
    Outcome.Moves inscribes world [] [] (world.undertake errand) := by
  cases account with
  | answer => exact moves_nothing _
  | forget register => exact moves_done (fun _ _ _ => moves_registers _) _
  | create =>
      have unbound : ObjectKind.plain.Unbound world.engine.registry := trivial
      exact moves_done (fun _ _ _ => moves_allocate (runs rfl) unbound) _
  | createFunction name =>
      have unbound : (ObjectKind.function name).Unbound world.engine.registry := trivial
      exact moves_done (fun _ _ _ => moves_allocate (runs rfl) unbound) _
  | setProperty object key value => exact moves_set_property _ key _
  | getProperty object key => exact moves_give _
  | duplicate value => exact moves_done (fun _ _ _ => moves_duplicate _) _
  | release value =>
      exact Outcome.Moves.after (moves_of_bare (fun _ _ _ => .refl) fun task member =>
        List.mem_singleton.1 member ▸ bare_release _) _
  | collect => exact absurd rfl collects
  | finalizeNow value => exact (moves_finalize_now (inscribed trivial) _).after _
  | setSlot value classId key =>
      exact moves_done (fun _ _ _ => moves_set_slot (inscribed trivial) _ classId key) _
  | reserve => exact moves_done (fun _ _ _ => moves_reserve (inscribed trivial) (runs rfl)) _
  | classPrototype classId => exact moves_give _
  | instantiate proto classId => exact moves_instantiate (runs rfl) _ classId
  | call owns offers receives listed => exact moves_call (runs rfl) (served.offers offers) _ _
  | install name config => exact moves_install_bridge (inscribed trivial) (runs rfl) name config
  | createBridge name classId config => exact moves_create_bridge name classId config
  | dropBridge name => exact moves_drop_named_bridge name
  | enter entry receiver operands named =>
      exact moves_enter_bridge (runs rfl) (NameMap.mem_values_of_find named) entry _ _
  | finalize handle named =>
      exact moves_finalize_through (inscribed trivial) (NameMap.mem_values_of_find named) _
  | acquire name value => exact moves_acquire_reference (runs rfl) name _
  | dropReference name => exact moves_drop_named_reference name
  | createState name link => exact moves_create_state name link
  | setCallback name callback => exact moves_set_state_callback (runs rfl) name _
  | clearState name keep => exact moves_clear_state name keep
  | dropState name => exact moves_drop_state name
  | shutDown => exact moves_shut_down (ends rfl)

/-- All commands but those that collect or end the engine come to moves. -/
theorem moves_perform (served : world.Served) {command : Command}
    (collects : command ≠ .object .collect)
    (ends : command = .shutDown → world.engine.running = false)
    (inscribed : command.Inscribes → inscribes) :
    Outcome.Moves inscribes world [] [] (world.perform read command) := by
  unfold perform
  split
  · exact moves_nothing _
  · rename_i offered
    have runs : command.needsEngine = true → world.engine.running = true := by
      intro needs
      simpa [needs] using offered
    rw [← undertake_errand]
    exact moves_undertake read served (world.account read command) runs collects ends inscribed

theorem moves_define_scripted (inscribed : inscribes) (classId : ClassId) (name : String)
    (constructor : Body)
    (methods : List (String × Body)) (finalizer : Body) :
    Outcome.Moves inscribes world [] []
      (world.defineScripted classId name constructor methods finalizer) := by
  unfold defineScripted
  dsimp only
  split
  · rename_i running
    split
    · rename_i vacant
      have served : (NativeFunction.script constructor).Served world := trivial
      refine moves_done (fun _ _ _ => moves_define inscribed running vacant served ?_) _
      intro pair member
      obtain ⟨method, -, rfl⟩ := List.mem_map.1 member
      trivial
    · exact moves_nothing _
  · exact moves_nothing _

theorem moves_report_collection (finalizedBefore : Nat) :
    Outcome.Moves inscribes world [] [] (world.reportCollection finalizedBefore) := by
  unfold reportCollection
  dsimp only
  refine moves_done ?_ _
  intro held left calls
  split
  · exact moves_emit trivial
  · exact .refl

end Commands

end World

end ScriptSignal
