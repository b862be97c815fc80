import ScriptSignal.Proofs.Dealings
import ScriptSignal.Proofs.Runs

/-!
# Requests that run no scripts

In a world of Signals only, the tasks that a request leaves run no scripts, and neither do
the tasks that come of them. Each of them makes the load of the machine lighter: the
references that objects and states may still give up, the objects that wait, and the tasks.
So every request comes to its end, whoever asks and in whatever order.
-/

namespace ScriptSignal

set_option autoImplicit false

/-- What a task does to the world, apart from the register of an answer. -/
def World.handle (world : World) : Task → Outcome
  | .release value => world.release value
  | .drop held => world.dropReference held
  | .reclaim id => world.reclaim id
  | .remove id => world.removeObject id
  | .drain count => world.drain count
  | .reportCollection finalizedBefore => world.reportCollection finalizedBefore
  | .report event => (world.emit event, [])
  | .bind bridge route handle link => world.bindSignal bridge route handle link
  | .endCall bridge => world.endCall bridge
  | .settle bridge => world.settleBridge bridge
  | _ => (world, [])

def Task.Follows : Task → Prop
  | .release _ | .drop _ | .settle _ | .report _ | .endCall _ | .answer _ => True
  | _ => False

theorem Task.Follows.native {task : Task} (follows : task.Follows) : task.Native := by
  cases task <;> trivial

theorem Task.GivesBack.follows {task : Task} (gives : task.GivesBack) : task.Follows := by
  cases task <;> trivial

/-- A reference weighs less the further it is on its way out: from a state, as a strong
reference, from an object, to a count. An object that is reclaimed weighs less than one that
waits, and that one less than its last reference. -/
def Task.weight : Task → Nat
  | .release _ => 4
  | .drop _ => 5
  | .reclaim _ => 2
  | .reportCollection _ => 2
  | .bind _ _ _ link => 6 * link.toList.length + 2
  | _ => 1

def weigh (tasks : List Task) : Nat := (tasks.map Task.weight).sum

@[simp] theorem weigh_nil : weigh [] = 0 := rfl

@[simp] theorem weigh_cons (task : Task) (rest : List Task) :
    weigh (task :: rest) = task.weight + weigh rest := rfl

@[simp] theorem weigh_append (first last : List Task) :
    weigh (first ++ last) = weigh first + weigh last := by
  simp [weigh]

theorem weigh_releases (values : List Value) :
    weigh (values.map Task.release) = 4 * values.length := by
  induction values with
  | nil => rfl
  | cons value rest induction =>
      rw [List.map_cons, weigh_cons, induction, List.length_cons]
      simp only [Task.weight]
      omega

theorem weigh_drops (held : List StrongRef) :
    weigh (held.map Task.drop) = 5 * held.length := by
  induction held with
  | nil => rfl
  | cons reference rest induction =>
      rw [List.map_cons, weigh_cons, induction, List.length_cons]
      simp only [Task.weight]
      omega

namespace World

def load (world : World) : Nat :=
  5 * world.objectReferences.length + 6 * world.tableReferences.length
    + 3 * world.engine.backlog.items.length

section Load

variable {world : World}

@[simp] theorem load_emit (event : Event) : (world.emit event).load = world.load := rfl

theorem length_objects_put {place : ObjectId} {old : Object}
    (found : world.engine.heap.get? place = some old) (new : Object) :
    (world.putObject place new).objectReferences.length + old.owned.length =
      world.objectReferences.length + new.owned.length := by
  unfold objectReferences putObject Heap.put
  rw [Array.toList_setIfInBounds]
  have moved := length_flat_map_set (place_of_get found) (some new)
    (fun place => place.toList.flatMap Object.owned)
  simpa using moved

theorem load_put {place : ObjectId} {old new : Object}
    (found : world.engine.heap.get? place = some old) (same : new.owned = old.owned) :
    (world.putObject place new).load = world.load := by
  have objects := length_objects_put found new
  rw [same] at objects
  have tables : (world.putObject place new).tableReferences = world.tableReferences := rfl
  have waiting : (world.putObject place new).engine.backlog = world.engine.backlog := rfl
  unfold load
  rw [tables, waiting]
  omega

theorem load_set_slot (value : Value) (classId : ClassId) (key : Option Key) :
    (world.setSlot value classId key).load = world.load := by
  rcases set_slot_cases world value classId key with
    ⟨same, -⟩ | ⟨place, object, slot, -, found, -, same⟩
  · rw [same]
  · rw [same]
    exact load_put found rfl

theorem load_bind_handle (bridge : BridgeId) (handle : Value) (key : Option Key) :
    (world.bindHandle bridge handle key).load = world.load := by
  rcases bind_handle_cases world bridge handle key with same | ⟨held, -, same⟩
  · rw [same]
  · rw [same]
    exact load_set_slot handle held.classId key

theorem load_modify_bridge {place : BridgeId} {bridge : Bridge}
    (found : world.bridge? place = some bridge) (change : Bridge → Bridge) :
    (world.modifyBridge place change).load
        + 6 * (bridge.states.entries.flatMap SignalState.values).length =
      world.load + 6 * ((change bridge).states.entries.flatMap SignalState.values).length := by
  have listed : world.bridges.toList[place.index]? = some bridge := by
    rw [Array.getElem?_toList]
    exact found
  have tables : (world.modifyBridge place change).tableReferences.length
      + (bridge.states.entries.flatMap SignalState.values).length =
        world.tableReferences.length
          + ((change bridge).states.entries.flatMap SignalState.values).length := by
    unfold tableReferences modifyBridge
    rw [Array.toList_modify, List.modify_eq_set_getElem?, listed]
    exact length_flat_map_set listed (change bridge)
      (fun bridge => bridge.states.entries.flatMap SignalState.values)
  have objects : (world.modifyBridge place change).objectReferences = world.objectReferences :=
    rfl
  have waiting : (world.modifyBridge place change).engine.backlog = world.engine.backlog := rfl
  unfold load
  rw [objects, waiting]
  omega

theorem load_erase_state {place : BridgeId} {key : Key} {old : SignalState}
    (held : world.state? place key = some old) :
    (world.modifyStates place fun states => states.erase key).load + 6 * old.held.length =
      world.load := by
  obtain ⟨bridge, found, reached⟩ := bridge_of_state held
  have moved : (world.modifyStates place fun states => states.erase key).load
      + 6 * (bridge.states.entries.flatMap SignalState.values).length =
        world.load + 6 * ((bridge.states.erase key).entries.flatMap SignalState.values).length :=
    load_modify_bridge found _
  have fewer := Slab.length_erase reached SignalState.values
  have values : old.values.length = old.held.length := List.length_map ..
  omega

theorem load_insert_state {place : BridgeId} {bridge : Bridge}
    (found : world.bridge? place = some bridge) (sound : bridge.states.Sound)
    (state : SignalState) :
    (world.modifyStates place fun states => states.insert state).load =
      world.load + 6 * state.held.length := by
  have moved : (world.modifyStates place fun states => states.insert state).load
      + 6 * (bridge.states.entries.flatMap SignalState.values).length =
        world.load
          + 6 * ((bridge.states.insert state).entries.flatMap SignalState.values).length :=
    load_modify_bridge found _
  have more := Slab.length_insert sound state SignalState.values
  have values : state.values.length = state.held.length := List.length_map ..
  omega

theorem load_activity (place : BridgeId) (active : Nat → Nat) :
    (world.modifyBridge place fun bridge => { bridge with active := active bridge.active }).load
      = world.load := by
  cases found : world.bridge? place with
  | none => rw [modify_missing_bridge found]
  | some bridge =>
      have moved := load_modify_bridge found fun bridge =>
        { bridge with active := active bridge.active }
      dsimp only at moved
      omega

/-- The world without an object, whose references are not yet given back. -/
def without (world : World) (id : ObjectId) : World :=
  { world with
    engine.heap := world.engine.heap.remove id
    engine.finalized := world.engine.finalized + 1 }

theorem load_without {id : ObjectId} {object : Object}
    (found : world.engine.heap.get? id = some object) :
    (world.without id).load + 5 * object.owned.length = world.load := by
  have objects : (world.without id).objectReferences.length + object.owned.length =
      world.objectReferences.length := by
    unfold objectReferences without Heap.remove
    rw [Array.toList_setIfInBounds]
    have moved := length_flat_map_set (place_of_get found) none
      (fun place => place.toList.flatMap Object.owned)
    simpa using moved
  have tables : (world.without id).tableReferences = world.tableReferences := rfl
  have waiting : (world.without id).engine.backlog = world.engine.backlog := rfl
  unfold load
  rw [tables, waiting]
  omega

end Load

def recount (world : World) (id : ObjectId) (object : Object) (count : Nat) : World :=
  world.putObject id { object with refCount := count }

def postpone (world : World) (id : ObjectId) : World :=
  ({ world with engine.backlog := world.engine.backlog.defer id } : World).emit
    (.deferred (world.engine.backlog.defer id).pending)

section Steps

variable {world : World}

theorem object_of_references {id : ObjectId} (held : 0 < world.references id) :
    ∃ object count, world.engine.heap.get? id = some object ∧ object.refCount = count + 1 := by
  unfold references at held
  cases found : world.engine.heap.get? id with
  | none =>
      rw [found] at held
      cases held
  | some object =>
      rw [found] at held
      exact ⟨object, object.refCount - 1, rfl, (Nat.sub_add_cancel held).symm⟩

theorem release_of_unreferenced {id : ObjectId} (none : world.references id = 0) :
    ∃ event, world.release (.object id) = (world.emit event, []) := by
  cases found : world.engine.heap.get? id with
  | none => exact ⟨.unknownRelease id, by simp [release, releaseObject, found]⟩
  | some object =>
      have counts := references_of_get id found
      rw [none] at counts
      exact ⟨.unreferencedRelease id, by simp [release, releaseObject, found, ← counts]⟩

/-- A counted reference that is given back was the last one, or not. -/
theorem release_cases {id : ObjectId} {object : Object} {count : Nat}
    (found : world.engine.heap.get? id = some object) (counted : object.refCount = count + 1) :
    (count = 0 ∧ world.release (.object id) = (world.recount id object count, [.reclaim id])) ∨
      (count = 0 ∧ world.engine.mode = .deferred ∧
        world.release (.object id) = ((world.recount id object count).postpone id, [])) ∨
      (count ≠ 0 ∧ world.release (.object id) = (world.recount id object count, [])) := by
  by_cases last : count = 0
  · cases mode : world.engine.mode with
    | immediate =>
        left
        refine ⟨last, ?_⟩
        simp [release, releaseObject, found, counted, last, putObject, mode, recount]
    | deferred =>
        right
        left
        refine ⟨last, rfl, ?_⟩
        simp [release, releaseObject, found, counted, last, putObject, mode, recount, postpone]
  · right
    right
    refine ⟨last, ?_⟩
    simp [release, releaseObject, found, counted, last, recount]

@[simp] theorem items_postpone (id : ObjectId) :
    (world.postpone id).engine.backlog.items = world.engine.backlog.items ++ [id] :=
  Backlog.items_defer _ id

theorem load_postpone (id : ObjectId) : (world.postpone id).load = world.load + 3 := by
  have objects : (world.postpone id).objectReferences = world.objectReferences := rfl
  have tables : (world.postpone id).tableReferences = world.tableReferences := rfl
  unfold load
  rw [objects, tables, items_postpone, List.length_append]
  rfl

theorem serves_of_tidy (tidy : world.Tidy) {bridgeId : BridgeId} {bridge : Bridge}
    (found : world.bridge? bridgeId = some bridge) (room : bridge.states.capacity ≤ 2 ^ 32) :
    world.Serves bridge.classId bridgeId bridge := by
  refine ⟨found, tidy.installed bridgeId bridge found, rfl, ?_, room⟩
  intro other otherBridge foundOther sameClass
  obtain ⟨proto, record⟩ := tidy.served bridgeId bridge found
  obtain ⟨otherProto, otherRecord⟩ := tidy.served other otherBridge foundOther
  rw [sameClass, record] at otherRecord
  have finalizers := congrArg (fun found => found.map ClassRecord.finalizer) otherRecord
  simp only [Option.map_some, Registry.made, BridgeId.definition, Option.some.injEq,
    Finalizer.signal.injEq] at finalizers
  exact finalizers.symm

/-- In a tidy world every bridge is held by the functions of its class. -/
theorem settle_bridge_of_tidy (tidy : world.Tidy) (id : BridgeId) :
    world.settleBridge id = (world, []) := by
  unfold settleBridge
  split
  · rfl
  · rename_i held
    cases found : world.bridge? id with
    | none =>
        unfold modifyStates
        simp [modify_missing_bridge found]
    | some bridge =>
        have still : world.holdsBridge id = true := by
          simp [holdsBridge, found, tidy.installed id bridge found, tidy.running]
        exact absurd still held

end Steps

end World

/-- What comes of a task. The world stays tidy, and what is left to do runs no scripts and is
less than before. -/
structure Outcome.Proceeds (before : World) (task : Task) (outcome : Outcome) : Prop where
  tidy : outcome.1.Tidy
  mode : outcome.1.engine.mode = before.engine.mode
  bridges : ∀ id bridge, before.bridge? id = some bridge →
    ∃ later, outcome.1.bridge? id = some later ∧ bridge.states.capacity ≤ later.states.capacity
  native : ∀ next ∈ outcome.2, next.Native
  unbinding : ∀ id route handle link, .bind id route handle link ∉ outcome.2
  lighter : outcome.1.load + weigh outcome.2 < before.load + task.weight

namespace World

section Tasks

variable {world after : World}

/-- A task that leaves only references to give back and an answer. -/
theorem proceeds_of_upkeep {task : Task} {tasks : List Task} (tidy : world.Tidy)
    (upkeep : Upkeep world after) (follows : ∀ next ∈ tasks, next.Follows)
    (lighter : after.load + weigh tasks < world.load + task.weight) :
    Outcome.Proceeds world task (after, tasks) where
  tidy := upkeep.tidy tidy
  mode := upkeep.mode
  bridges := upkeep.bridges
  native := fun next member => (follows next member).native
  unbinding := fun _ _ _ _ member => follows _ member
  lighter := lighter

theorem proceeds_emit {task : Task} (tidy : world.Tidy) (event : Event)
    (weighs : 0 < task.weight) : Outcome.Proceeds world task (world.emit event, []) := by
  apply proceeds_of_upkeep tidy (upkeep_emit world event) (by simp)
  simp [weighs]

theorem proceeds_nothing {task : Task} (tidy : world.Tidy) (weighs : 0 < task.weight) :
    Outcome.Proceeds world task (world, []) := by
  apply proceeds_of_upkeep tidy (.refl world) (by simp)
  simp [weighs]

theorem proceeds_release (tidy : world.Tidy) (value : Value) :
    Outcome.Proceeds world (.release value) (world.release value) := by
  cases value with
  | object id =>
      by_cases held : 0 < world.references id
      · obtain ⟨object, count, found, counted⟩ := object_of_references held
        have recounted : (world.recount id object count).Tidy :=
          ⟨tidy.running, tidy.classes, tidy.installed, tidy.served, tidy.sound, tidy.references,
            tidy.states, tidy.counted⟩
        have same : (world.recount id object count).load = world.load := load_put found rfl
        rcases release_cases found counted with ⟨-, outcome⟩ | ⟨-, -, outcome⟩ | ⟨-, outcome⟩
        · rw [outcome]
          refine ⟨recounted, rfl, (Upkeep.refl world).bridges, ?_, ?_, ?_⟩
          · simp [Task.Native]
          · simp
          · simp [same, Task.weight]
        · rw [outcome]
          refine ⟨?_, rfl, (Upkeep.refl world).bridges, by simp, by simp, ?_⟩
          · exact ⟨tidy.running, tidy.classes, tidy.installed, tidy.served, tidy.sound,
              tidy.references, tidy.states, Backlog.counted_defer tidy.counted id⟩
          · simp [load_postpone, same, Task.weight]
        · rw [outcome]
          refine ⟨recounted, rfl, (Upkeep.refl world).bridges, by simp, by simp, ?_⟩
          simp [same, Task.weight]
      · obtain ⟨event, outcome⟩ := release_of_unreferenced (Nat.eq_zero_of_not_pos held)
        rw [outcome]
        exact proceeds_emit tidy event (by simp [Task.weight])
  | _ => exact proceeds_nothing tidy (by simp [Task.weight])

theorem proceeds_drop (tidy : world.Tidy) (held : StrongRef) :
    Outcome.Proceeds world (.drop held) (world.dropReference held) := by
  unfold dropReference
  rw [if_pos tidy.running]
  apply proceeds_of_upkeep tidy (upkeep_emit world _)
  · simp [Task.Follows]
  · simp [Task.weight]

theorem weigh_finalize_signal (bridge : BridgeId) (handle : Value) :
    (world.finalizeSignal bridge handle).1.load + weigh (world.finalizeSignal bridge handle).2 ≤
      world.load := by
  rcases finalize_signal_cases world bridge handle with
    ⟨same, -⟩ | ⟨key, state, -, held, same⟩ | ⟨key, -, -, same⟩
  · rw [same]
    simp
  · have reached : (world.bindHandle bridge handle none).state? bridge key = some state := by
      rw [state_bind_handle, held]
    have erased := load_erase_state reached
    have bound := @load_bind_handle world bridge handle none
    rw [same, weigh_drops, load_emit]
    omega
  · rw [same]
    simp [load_bind_handle]

theorem weigh_run_finalizer (tidy : world.Tidy) (id : ObjectId) :
    (world.runFinalizer id).1.load + weigh (world.runFinalizer id).2 ≤ world.load := by
  rcases run_finalizer_cases tidy id with same | ⟨bridge, same⟩
  · rw [same]
    simp
  · rw [same]
    exact weigh_finalize_signal bridge _

theorem proceeds_reclaim (tidy : world.Tidy) (id : ObjectId) :
    Outcome.Proceeds world (.reclaim id) (world.reclaim id) := by
  unfold reclaim
  cases found : world.engine.heap.get? id with
  | none => exact proceeds_nothing tidy (by simp [Task.weight])
  | some object =>
      dsimp only
      split
      · obtain ⟨upkeep, gives, -⟩ := run_finalizer_law tidy id
        have lighter := weigh_run_finalizer tidy id
        refine ⟨upkeep.tidy tidy, upkeep.mode, upkeep.bridges, ?_, ?_, ?_⟩
        · intro next member
          rcases List.mem_append.1 member with early | final
          · exact (gives next early).native
          · cases List.mem_singleton.1 final
            trivial
        · intro bridge route handle link member
          rcases List.mem_append.1 member with early | final
          · exact (gives _ early).not_binds bridge route handle link rfl
          · cases List.mem_singleton.1 final
        · simp only [weigh_append, weigh_cons, weigh_nil, Task.weight]
          omega
      · exact proceeds_emit tidy _ (by simp [Task.weight])

theorem proceeds_remove (tidy : world.Tidy) (id : ObjectId) :
    Outcome.Proceeds world (.remove id) (world.removeObject id) := by
  unfold removeObject
  cases found : world.engine.heap.get? id with
  | none => exact proceeds_nothing tidy (by simp [Task.weight])
  | some object =>
      have removed := load_without found
      have many := (world.engine.order.perm id object.owned).length_eq
      refine ⟨?_, rfl, (Upkeep.refl world).bridges, ?_, ?_, ?_⟩
      · exact ⟨tidy.running, tidy.classes, tidy.installed, tidy.served, tidy.sound, tidy.references,
          tidy.states, tidy.counted⟩
      · intro next member
        obtain ⟨value, -, rfl⟩ := List.mem_map.1 member
        trivial
      · intro bridge route handle link member
        obtain ⟨value, -, same⟩ := List.mem_map.1 member
        cases same
      · change ((world.without id).emit (.reclaimed id)).load + _ < _
        rw [load_emit, weigh_releases]
        simp only [Task.weight]
        omega

theorem proceeds_drain (tidy : world.Tidy) (count : Nat) :
    Outcome.Proceeds world (.drain count) (world.drain count) := by
  unfold drain
  split
  · rename_i id backlog taken
    refine ⟨?_, rfl, (Upkeep.refl world).bridges, by simp [Task.Native], by simp, ?_⟩
    · exact ⟨tidy.running, tidy.classes, tidy.installed, tidy.served, tidy.sound, tidy.references,
        tidy.states, Backlog.counted_next tidy.counted taken⟩
    · have objects : ({ world with engine.backlog := backlog } : World).objectReferences =
          world.objectReferences := rfl
      have tables : ({ world with engine.backlog := backlog } : World).tableReferences =
          world.tableReferences := rfl
      simp only [load, objects, tables, Backlog.items_eq_cons_of_next taken, List.length_cons,
        weigh_cons, weigh_nil, Task.weight]
      omega
  · split
    · exact proceeds_emit tidy _ (by simp [Task.weight])
    · exact proceeds_nothing tidy (by simp [Task.weight])

theorem proceeds_report_collection (tidy : world.Tidy) (before : Nat) :
    Outcome.Proceeds world (.reportCollection before) (world.reportCollection before) := by
  unfold reportCollection
  dsimp only
  split
  · apply proceeds_of_upkeep tidy (upkeep_emit world _)
    · simp [Task.Follows]
    · simp [Task.weight]
  · apply proceeds_of_upkeep tidy (.refl world)
    · simp [Task.Follows]
    · simp [Task.weight]

theorem proceeds_bind (tidy : world.Tidy) (id : BridgeId) (route : Route) (handle : Value)
    (link : Option StrongRef) :
    Outcome.Proceeds world (.bind id route handle link)
      (world.bindSignal id route handle link) := by
  cases found : world.bridge? id with
  | some bridge =>
      rw [bind_signal_eq found]
      have inserted := upkeep_modify_states world id
        (fun states sound => Slab.sound_insert sound (⟨none, link⟩ : SignalState))
        fun states => Slab.capacity_le_insert states _
      have bound := inserted.trans (upkeep_bind_handle _ id handle (some bridge.states.nextKey))
      apply proceeds_of_upkeep tidy (bound.trans (upkeep_emit _ _))
      · simp [Task.Follows]
      · have held : (⟨none, link⟩ : SignalState).held = link.toList := rfl
        rw [load_emit, load_bind_handle, load_insert_state found (tidy.sound id bridge found), held]
        simp only [weigh_cons, weigh_nil, Task.weight]
        omega
  | none =>
      have refused : world.bindSignal id route handle link =
          world.after (link.toList.map .drop) (.refused .noBridge) := by
        simp [bindSignal, found]
      rw [refused]
      apply proceeds_of_upkeep tidy (.refl world)
      · intro next member
        rcases List.mem_append.1 member with drops | last
        · exact (gives_back_drops _ next drops).follows
        · cases List.mem_singleton.1 last
          trivial
      · simp only [weigh_append, weigh_drops, weigh_cons, weigh_nil, Task.weight]
        omega

theorem proceeds_end_call (tidy : world.Tidy) (id : BridgeId) :
    Outcome.Proceeds world (.endCall id) (world.endCall id) := by
  have upkeep := upkeep_activity world id (· - 1)
  unfold endCall
  rw [settle_bridge_of_tidy (upkeep.tidy tidy)]
  apply proceeds_of_upkeep tidy upkeep (by simp)
  simp [load_activity id (· - 1), Task.weight]

theorem proceeds_handle (tidy : world.Tidy) {task : Task} (native : task.Native) :
    Outcome.Proceeds world task (world.handle task) := by
  cases task with
  | release value => exact proceeds_release tidy value
  | drop held => exact proceeds_drop tidy held
  | reclaim id => exact proceeds_reclaim tidy id
  | remove id => exact proceeds_remove tidy id
  | drain count => exact proceeds_drain tidy count
  | reportCollection before => exact proceeds_report_collection tidy before
  | report event => exact proceeds_emit tidy event (by simp [Task.weight])
  | bind id route handle link => exact proceeds_bind tidy id route handle link
  | endCall id => exact proceeds_end_call tidy id
  | settle id =>
      simp only [handle, settle_bridge_of_tidy tidy]
      exact proceeds_nothing tidy (by simp [Task.weight])
  | answer reply => exact proceeds_nothing tidy (by simp [Task.weight])
  | finish label => exact proceeds_nothing tidy (by simp [Task.weight])
  | enter body receiver arguments purpose => exact native.elim
  | leave body purpose => exact native.elim
  | perform step => exact native.elim
  | iterate times steps => exact native.elim

end Tasks

end World

namespace Machine

/-- A request is carried out until nothing is left to do. -/
def Completes (machine : Machine) (step : Step) (ended : Machine) : Prop :=
  ∃ fuel, (machine.submit step).run fuel = ended ∧ ended.agenda = []

structure Calm (machine : Machine) : Prop where
  tidy : machine.world.Tidy
  native : ∀ task ∈ machine.agenda, task.Native

theorem calm_start (setting : Setting) : (start setting).Calm where
  tidy := World.tidy_start setting
  native := by
    intro task member
    simp [start] at member

def load (machine : Machine) : Nat := machine.world.load + weigh machine.agenda

section Step

variable {machine : Machine} {task : Task} {rest : List Task}

theorem step_native (shape : machine.agenda = task :: rest) (native : task.Native) :
    machine.step.agenda = (machine.world.handle task).2 ++ rest ∧
      (machine.step.world = (machine.world.handle task).1 ∨ ∃ register kept,
        machine.step.world = (machine.world.handle task).1.setRegister register kept) ∧
      ((∀ reply, task ≠ .answer reply) → machine.step.frame.reply = machine.frame.reply) ∧
      ∀ reply, task = .answer reply → machine.step.frame.reply = reply := by
  rw [step_of_cons shape]
  cases task with
  | answer reply =>
      have parts := parts_answer { machine with agenda := rest } reply
      refine ⟨parts.1, ?_, fun asks => absurd rfl (asks reply), ?_⟩
      · rcases answer_cases { machine with agenda := rest } reply with
          same | ⟨register, kept, -, written⟩
        · exact .inl same
        · exact .inr ⟨register, kept, written⟩
      · rintro other same
        cases same
        change (Machine.answer { machine with agenda := rest } reply).frame.reply = reply
        rw [parts.2.1]
  | finish label =>
      simp only [carryOut, record]
      split
      · exact ⟨rfl, .inl rfl, fun _ => rfl, by simp⟩
      · exact ⟨rfl, .inl rfl, fun _ => rfl, by simp⟩
  | enter body receiver arguments purpose => exact native.elim
  | leave body purpose => exact native.elim
  | perform step => exact native.elim
  | iterate times steps => exact native.elim
  | _ => exact ⟨rfl, .inl rfl, fun _ => rfl, by simp⟩

theorem upkeep_of_register {after world : World}
    (same : after = world ∨ ∃ register kept, after = world.setRegister register kept) :
    World.Upkeep world after ∧ (∀ id, after.surplus id = world.surplus id) ∧
      ∀ id, after.references id = world.references id := by
  rcases same with rfl | ⟨register, kept, rfl⟩
  · exact ⟨.refl after, fun _ => rfl, fun _ => rfl⟩
  · have upkeep : World.Upkeep world (world.setRegister register kept) :=
      World.upkeep_client world rfl (fun distinct => distinct) fun distinct => distinct
    exact ⟨upkeep, fun _ => rfl, fun _ => rfl⟩

theorem Calm.step (calm : machine.Calm) : machine.step.Calm := by
  cases shape : machine.agenda with
  | nil =>
      rw [step_of_nil shape]
      exact calm
  | cons task rest =>
      have native := calm.native task (by simp [shape])
      have proceeds := World.proceeds_handle calm.tidy native
      obtain ⟨agenda, world, -, -⟩ := step_native shape native
      refine ⟨(upkeep_of_register world).1.tidy proceeds.tidy, ?_⟩
      intro next member
      rw [agenda] at member
      rcases List.mem_append.1 member with new | old
      · exact proceeds.native next new
      · exact calm.native next (by simp [shape, old])

theorem Calm.run (calm : machine.Calm) (fuel : Nat) : (machine.run fuel).Calm :=
  run_of_step Calm Calm calm calm (fun _ calm => calm.step) (fun _ calm _ => calm.step) fuel

theorem Calm.keeps (calm : machine.Calm) (Kept : Machine → Prop) (kept : Kept machine)
    (step : ∀ machine : Machine, machine.Calm → Kept machine → Kept machine.step) (fuel : Nat) :
    Kept (machine.run fuel) :=
  run_of_step Calm Kept calm kept (fun _ calm => calm.step) step fuel

theorem Calm.lighter (calm : machine.Calm) (busy : machine.agenda ≠ []) :
    machine.step.load < machine.load := by
  cases shape : machine.agenda with
  | nil => exact absurd shape busy
  | cons task rest =>
      have native := calm.native task (by simp [shape])
      have proceeds := World.proceeds_handle calm.tidy native
      obtain ⟨agenda, world, -, -⟩ := step_native shape native
      have same : machine.step.world.load = (machine.world.handle task).1.load := by
        rcases world with equal | ⟨register, kept, equal⟩
        · rw [equal]
        · rw [equal]
          rfl
      have lighter := proceeds.lighter
      unfold load
      rw [agenda, shape, same, weigh_append, weigh_cons]
      omega

theorem Calm.ends (calm : machine.Calm) : ∃ fuel, (machine.run fuel).agenda = [] := by
  induction heavy : machine.load using Nat.strong_induction_on generalizing machine with
  | _ bound induction =>
      by_cases idle : machine.agenda = []
      · exact ⟨0, idle⟩
      · have lighter := calm.lighter idle
        obtain ⟨fuel, ended⟩ := induction machine.step.load (heavy ▸ lighter) calm.step rfl
        have busy : machine.agenda.isEmpty = false := by simp [idle]
        exact ⟨fuel + 1, by simp [Machine.run, busy, ended]⟩

end Step

section Requests

variable {machine : Machine} {label : String} {command : Command} {keep : Option String}

theorem allowed_of_offered (machine : Machine) (offered : command.Offered) :
    machine.isAllowed command = true := by
  cases command with
  | shutDown => exact offered.elim
  | _ => rfl

theorem step_submit_of_allowed (idle : machine.agenda = [])
    (allowed : machine.isAllowed command = true) :
    (machine.submit (.act label command keep)).step.world =
        (machine.world.perform machine.read command).1 ∧
      (machine.submit (.act label command keep)).step.agenda =
        (machine.world.perform machine.read command).2 ++ [.finish label] := by
  have shape : (machine.submit (.act label command keep)).agenda =
      [.perform (.act label command keep)] := by
    simp [submit, idle]
  rw [step_of_cons shape]
  exact @perform_act (machine.submit (.act label command keep)) [] label command keep allowed

theorem step_submit (idle : machine.agenda = []) (offered : command.Offered) :
    (machine.submit (.act label command keep)).step.world =
        (machine.world.perform machine.read command).1 ∧
      (machine.submit (.act label command keep)).step.agenda =
        (machine.world.perform machine.read command).2 ++ [.finish label] :=
  step_submit_of_allowed idle (allowed_of_offered machine offered)

theorem run_of_busy {ended : Machine} {fuel : Nat} (ran : machine.run fuel = ended)
    (idle : ended.agenda = []) (busy : machine.agenda ≠ []) :
    ∃ fuel, machine.step.run fuel = ended := by
  cases fuel with
  | zero =>
      have same : machine = ended := ran
      rw [same] at busy
      exact absurd idle busy
  | succ fuel =>
      have more : machine.agenda.isEmpty = false := by simp [busy]
      refine ⟨fuel, ?_⟩
      rw [← ran]
      simp [run, more]

/-- What comes of a request that was carried out began with its first step. -/
theorem run_of_completes {step : Step} {ended : Machine}
    (completes : machine.Completes step ended) :
    ∃ fuel, (machine.submit step).step.run fuel = ended ∧ ended.agenda = [] := by
  obtain ⟨fuel, ran, idle⟩ := completes
  obtain ⟨more, later⟩ := run_of_busy ran idle (by simp [submit])
  exact ⟨more, later, idle⟩

theorem Calm.begin (calm : machine.Calm) (idle : machine.agenda = [])
    (offered : command.Offered) :
    (machine.submit (.act label command keep)).step.Calm := by
  obtain ⟨world, agenda⟩ := @step_submit machine label command keep idle offered
  have deal := @World.deal_perform False machine.world machine.read calm.tidy False.elim command
    offered False.elim
  refine ⟨?_, ?_⟩
  · rw [world]
    exact deal.upkeep.tidy calm.tidy
  · intro task member
    rw [agenda] at member
    rcases List.mem_append.1 member with early | last
    · exact deal.native task early
    · cases List.mem_singleton.1 last
      trivial

/-- A request that begins calmly is carried out, and leaves a calm machine. -/
theorem Calm.completes_of_begin {step : Step} (begun : (machine.submit step).step.Calm) :
    ∃ ended, machine.Completes step ended ∧ ended.Calm := by
  obtain ⟨fuel, ended⟩ := begun.ends
  have busy : (machine.submit step).agenda.isEmpty = false := by simp [submit]
  have same : (machine.submit step).run (fuel + 1) = (machine.submit step).step.run fuel := by
    simp [Machine.run, busy]
  refine ⟨_, ⟨fuel + 1, rfl, ?_⟩, ?_⟩
  · rw [same]
    exact ended
  · rw [same]
    exact begun.run fuel

/-- Every request that is offered to a client is carried out, and leaves a calm machine. -/
theorem Calm.completes (calm : machine.Calm) (idle : machine.agenda = [])
    (offered : command.Offered) (label : String) (keep : Option String) :
    ∃ ended, machine.Completes (.act label command keep) ended ∧ ended.Calm :=
  Calm.completes_of_begin (calm.begin idle offered)

theorem Calm.reachable_run (calm : machine.Calm) {classId : ClassId}
    (reached : Reachable classId machine) (fuel : Nat) : Reachable classId (machine.run fuel) := by
  refine calm.keeps (Reachable classId) reached ?_ fuel
  intro machine calm reached
  apply reached.step calm.tidy.running
  intro written
  unfold slotWritten? at written
  split at written
  · rename_i shape
    have native := calm.native _ (shape ▸ List.mem_cons_self)
    exact native
  · cases written

theorem slot_written_submit {command : Command} {label : String} {keep : Option String}
    (idle : machine.agenda = []) (offered : command.Offered) (classId : ClassId) :
    (machine.submit (.act label command keep)).slotWritten? ≠ some classId := by
  have shape : (machine.submit (.act label command keep)).agenda =
      [.perform (.act label command keep)] := by
    simp [submit, idle]
  intro written
  unfold slotWritten? at written
  rw [shape] at written
  split at written
  · rename_i same
    simp only [List.cons.injEq, Task.perform.injEq, Step.act.injEq] at same
    obtain ⟨⟨-, rfl, -⟩, -⟩ := same
    exact offered
  · cases written

/-- Requests of a client are among what clients and scripts may do. -/
theorem Calm.reachable (calm : machine.Calm) {classId : ClassId}
    (reached : Reachable classId machine) (idle : machine.agenda = [])
    (offered : command.Offered) (known : (Step.act label command keep).Known machine.world)
    {ended : Machine} (completes : machine.Completes (.act label command keep) ended) :
    Reachable classId ended := by
  obtain ⟨fuel, ran, -⟩ := run_of_completes completes
  have submitted := reached.submit idle known
  have begun := submitted.step calm.tidy.running (slot_written_submit idle offered classId)
  rw [← ran]
  exact (calm.begin idle offered).reachable_run begun fuel

end Requests

end Machine

end ScriptSignal
