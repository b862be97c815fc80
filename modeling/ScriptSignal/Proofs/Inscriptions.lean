import ScriptSignal.Proofs.Retention

/-!
# What is written to the registry and to slots

Classes are defined and slots are written at few places, and at each of them it is known beforehand
what will be written. A step writes this and leaves all other classes and slots alone.
-/

namespace ScriptSignal

set_option autoImplicit false

/-- What can be written to the registry, or to the slot of an object. -/
inductive Inscription
  | reserve
  | define (classId : ClassId) (definition : ClassDefinition)
  | slot (value : Value) (classId : ClassId) (key : Option Key)

def Inscription.marks (value : Value) (classId : ClassId) : Inscription → Bool
  | .slot other ofClass _ => other = value && ofClass = classId
  | _ => false

def Inscription.SlotAtMost (inscriptions : List Inscription) : Prop :=
  inscriptions = [] ∨ ∃ value classId key, inscriptions = [.slot value classId key]

namespace World

def inscribe (world : World) : Inscription → World
  | .reserve => world.reserveClass
  | .define classId definition =>
      match world.engine.registry.checkOpen classId with
      | .ok () => world.defineClass classId definition
      | .error _ => world
  | .slot value classId key => world.setSlot value classId key

theorem inscribe_define_cases (world : World) (classId : ClassId)
    (definition : ClassDefinition) :
    world.engine.registry.checkOpen classId = .ok () ∧
        world.inscribe (.define classId definition) = world.defineClass classId definition ∨
      world.engine.registry.checkOpen classId ≠ .ok () ∧
        world.inscribe (.define classId definition) = world := by
  simp only [inscribe]
  cases checked : world.engine.registry.checkOpen classId with
  | ok => exact .inl ⟨rfl, rfl⟩
  | error failure => exact .inr ⟨by simp, rfl⟩

section Handles

variable {world other : World}

theorem engine_set_slot_of_same (same : other.engine = world.engine) (value : Value)
    (classId : ClassId) (key : Option Key) :
    (other.setSlot value classId key).engine = (world.setSlot value classId key).engine := by
  unfold setSlot putObject
  rw [same]
  split
  · split
    · split
      · split
        · rfl
        · exact same
      · exact same
    · exact same
  · exact same

def unbinding (world : World) (id : BridgeId) (handle : Value) : List Inscription :=
  match world.boundKey id handle with
  | .ok _ => (world.bridge? id).toList.map fun bridge => .slot handle bridge.classId none
  | .error _ => []

def finalizing (world : World) (id : ObjectId) : List Inscription :=
  match (world.classOf? (.object id)).bind world.engine.registry.record? with
  | some record =>
      match record.finalizer with
      | .signal bridge => world.unbinding bridge (.object id)
      | .script _ => []
  | none => []

theorem engine_finalize_signal (world : World) (id : BridgeId) (handle : Value) :
    (world.finalizeSignal id handle).1.engine =
      ((world.unbinding id handle).foldl inscribe world).engine := by
  unfold finalizeSignal unbinding
  cases bound : world.boundKey id handle with
  | error failure => rfl
  | ok key =>
      obtain ⟨bridge, found, -⟩ := bound_key_eq_ok.1 bound
      have unbound : world.bindHandle id handle none =
          world.setSlot handle bridge.classId none := by
        simp [bindHandle, found]
      dsimp only
      rw [unbound, found]
      split <;> rfl

theorem engine_run_finalizer (world : World) (id : ObjectId) :
    (world.runFinalizer id).1.engine = ((world.finalizing id).foldl inscribe world).engine := by
  unfold runFinalizer finalizing
  cases (world.classOf? (.object id)).bind world.engine.registry.record? with
  | none => rfl
  | some record =>
      dsimp only
      cases record.finalizer with
      | signal bridge => exact engine_finalize_signal world bridge (.object id)
      | script body => rfl

theorem unbinding_begin_call (world : World) (id : BridgeId) (handle : Value) :
    (world.beginCall id).unbinding id handle = world.unbinding id handle := by
  have found : (world.beginCall id).bridge? id =
      (world.bridge? id).map fun bridge => { bridge with active := bridge.active + 1 } := by
    rw [beginCall, bridge_modify, if_pos rfl]
  unfold unbinding boundKey
  rw [found]
  cases world.bridge? id <;> rfl

theorem slot_at_most_unbinding (world : World) (id : BridgeId) (handle : Value) :
    Inscription.SlotAtMost (world.unbinding id handle) := by
  unfold unbinding
  split
  · cases world.bridge? id with
    | none => exact .inl rfl
    | some bridge => exact .inr ⟨handle, bridge.classId, none, rfl⟩
  · exact .inl rfl

theorem slot_at_most_finalizing (world : World) (id : ObjectId) :
    Inscription.SlotAtMost (world.finalizing id) := by
  unfold finalizing
  split
  · split
    · exact slot_at_most_unbinding world _ _
    · exact .inl rfl
  · exact .inl rfl

theorem engine_inscribe_slot {inscriptions : List Inscription}
    (slot : Inscription.SlotAtMost inscriptions) (same : other.engine = world.engine) :
    (inscriptions.foldl inscribe other).engine = (inscriptions.foldl inscribe world).engine := by
  rcases slot with rfl | ⟨value, classId, key, rfl⟩
  · exact same
  · exact engine_set_slot_of_same same value classId key

theorem engine_bind_signal (world : World) (id : BridgeId) (route : Route) (handle : Value)
    (link : Option StrongRef) :
    (world.bindSignal id route handle link).1.engine =
      (((world.bridge? id).toList.map fun held =>
        Inscription.slot handle held.classId (some held.states.nextKey)).foldl
          inscribe world).engine := by
  cases found : world.bridge? id with
  | none => simp [bindSignal, found, World.after]
  | some held =>
      have there : (world.modifyStates id fun states => states.insert ⟨none, link⟩).bridge? id =
          some { held with states := held.states.insert ⟨none, link⟩ } := by
        rw [modifyStates, bridge_modify, if_pos rfl, found]
        rfl
      have written := @engine_set_slot_of_same world
        (world.modifyStates id fun states => states.insert ⟨none, link⟩) rfl handle held.classId
        (some held.states.nextKey)
      simp only [bindSignal, bindHandle, found, there, Option.map_some]
      exact written

end Handles

def writing (world : World) (read : Operand → Value) : Command → List Inscription
  | .object (.setSlot value classId key) => [.slot (read value) classId key]
  | .object (.finalizeNow value) => (read value).object?.toList.flatMap world.finalizing
  | .classes .reserve => [.reserve]
  | .bridge (.install _ _) =>
      [.reserve, .define world.engine.registry.nextId world.nextBridge.definition]
  | .bridge (.finalize name handle) =>
      (world.client.bridges.find? name).toList.flatMap fun id => world.unbinding id (read handle)
  | _ => []

section Commands

variable {world : World} (read : Operand → Value)

theorem writing_eq_nil {command : Command} (plain : ¬command.Inscribes) :
    world.writing read command = [] := by
  unfold writing
  split <;> first | rfl | exact absurd trivial plain

theorem engine_finalize_now (world : World) (value : Value) :
    (world.finalizeNow value).1.engine =
      ((value.object?.toList.flatMap world.finalizing).foldl inscribe world).engine := by
  unfold finalizeNow
  cases value with
  | object id =>
      have writes : (Value.object id).object?.toList.flatMap world.finalizing =
          world.finalizing id := List.append_nil _
      rw [writes]
      exact engine_run_finalizer world id
  | _ => rfl

theorem engine_install_bridge (world : World) (name : String) (config : Config) :
    (world.installBridge name config).1.engine =
      ([Inscription.reserve,
        .define world.engine.registry.nextId world.nextBridge.definition].foldl
          inscribe world).engine := by
  unfold installBridge
  simp only [List.foldl_cons, List.foldl_nil, inscribe]
  cases world.reserveClass.engine.registry.checkOpen world.engine.registry.nextId <;> rfl

theorem engine_finalize_through (world : World) (id : BridgeId) (handle : Value) :
    (world.finalizeThrough id handle).1.engine =
      ((world.unbinding id handle).foldl inscribe world).engine := by
  rw [← engine_inscribe_slot (slot_at_most_unbinding world id handle)
    (show (world.beginCall id).engine = world.engine from rfl), ← unbinding_begin_call]
  exact engine_finalize_signal (world.beginCall id) id handle

/-- The commands that write anything write what they are said to write, and do nothing else to the
engine. -/
theorem engine_perform {command : Command} (inscribes : command.Inscribes) :
    (world.performRunning read command).1.engine =
      ((world.writing read command).foldl inscribe world).engine := by
  unfold Command.Inscribes at inscribes
  split at inscribes
  · rfl
  · exact engine_finalize_now world _
  · rfl
  · exact engine_install_bridge world _ _
  · rename_i name handle
    simp only [performRunning, performBridge, withBridge, writing]
    cases world.client.bridges.find? name with
    | none => rfl
    | some id =>
        have writes : (some id).toList.flatMap (fun id => world.unbinding id (read handle)) =
            world.unbinding id (read handle) := List.append_nil _
        rw [writes]
        exact engine_finalize_through world id (read handle)
  · exact inscribes.elim

/-- As long as the engine goes on, commands write what they are said to write and nothing else. -/
theorem retains_perform (served : world.Served) (command : Command)
    (running : world.engine.running = true)
    (goes : (world.perform read command).1.engine.running = true) :
    Retains ((world.writing read command).foldl inscribe world)
      (world.perform read command).1 := by
  have performed : world.perform read command = world.performRunning read command := by
    simp [perform, running]
  by_cases inscribes : command.Inscribes
  · rw [performed]
    exact .of_engine (engine_perform read inscribes)
  · rw [writing_eq_nil read inscribes]
    by_cases collects : command = .object .collect
    · subst collects
      rw [performed]
      simp only [performRunning, performObject, collect]
      split <;> exact .refl world
    · refine (moves_perform read served collects ?_ inscribes).retains
      rintro rfl
      simp [performed, performRunning, shutDown, running, after, Engine.stopped] at goes

end Commands

end World

namespace Machine

def scripted (name : String) (constructor : Body) (methods : List (String × Body))
    (finalizer : Body) : ClassDefinition where
  name
  constructor := .script constructor
  methods := methods.map fun (name, body) => (name, .script body)
  finalizer := .script finalizer

/-- What a task writes while the engine runs. -/
def inscribing (machine : Machine) : Task → List Inscription
  | .perform (.act _ command _) =>
      if machine.isAllowed command then machine.world.writing machine.read command else []
  | .perform (.define _ classId name constructor methods finalizer) =>
      [.define classId (scripted name constructor methods finalizer)]
  | .bind bridge _ handle _ =>
      (machine.world.bridge? bridge).toList.map fun held =>
        .slot handle held.classId (some held.states.nextKey)
  | .reclaim id => if machine.world.references id = 0 then machine.world.finalizing id else []
  | _ => []

def inscriptions (machine : Machine) : List Inscription :=
  match machine.agenda with
  | [] => []
  | task :: _ => machine.inscribing task

inductive Writes (machine : Machine) : List Inscription → Prop
  | slot {inscriptions : List Inscription} (slot : Inscription.SlotAtMost inscriptions) :
      Writes machine inscriptions
  | reserve : Writes machine [.reserve]
  | define (classId : ClassId) (definition : ClassDefinition) :
      Writes machine [.define classId definition]
  | install (definition : ClassDefinition) :
      Writes machine [.reserve, .define machine.world.engine.registry.nextId definition]

section Steps

variable {machine : Machine}

theorem writes_command (machine : Machine) (command : Command) :
    Writes machine (machine.world.writing machine.read command) := by
  unfold World.writing
  split
  · exact .slot (.inr ⟨_, _, _, rfl⟩)
  · rename_i operand
    cases (machine.read operand).object? with
    | none => exact .slot (.inl rfl)
    | some id =>
        simp only [Option.toList_some, List.flatMap_cons, List.flatMap_nil, List.append_nil]
        exact .slot (World.slot_at_most_finalizing machine.world id)
  · exact .reserve
  · exact .install _
  · rename_i name operand
    cases machine.world.client.bridges.find? name with
    | none => exact .slot (.inl rfl)
    | some id =>
        simp only [Option.toList_some, List.flatMap_cons, List.flatMap_nil, List.append_nil]
        exact .slot (World.slot_at_most_unbinding machine.world id _)
  · exact .slot (.inl rfl)

theorem writes_inscribing (machine : Machine) (task : Task) :
    Writes machine (machine.inscribing task) := by
  unfold inscribing
  split
  · split
    · exact writes_command machine _
    · exact .slot (.inl rfl)
  · exact .define _ _
  · rename_i bridge route handle link
    cases machine.world.bridge? bridge with
    | none => exact .slot (.inl rfl)
    | some held => exact .slot (.inr ⟨_, _, _, rfl⟩)
  · split
    · exact .slot (World.slot_at_most_finalizing machine.world _)
    · exact .slot (.inl rfl)
  · exact .slot (.inl rfl)

theorem writes_inscriptions (machine : Machine) : Writes machine machine.inscriptions := by
  unfold inscriptions
  split
  · exact .slot (.inl rfl)
  · exact writes_inscribing machine _

theorem inscriptions_eq_singleton {value : Value} {classId : ClassId} {key : Option Key}
    (member : Inscription.slot value classId key ∈ machine.inscriptions) :
    machine.inscriptions = [.slot value classId key] := by
  have writes := writes_inscriptions machine
  generalize machine.inscriptions = inscriptions at *
  cases writes with
  | slot slot =>
      rcases slot with rfl | ⟨target, ofClass, held, rfl⟩
      · cases member
      · rw [List.mem_singleton.1 member]
  | reserve => simp at member
  | define ofClass definition => simp at member
  | install definition => simp at member

theorem engine_answer (machine : Machine) (reply : Reply) :
    (machine.answer reply).world.engine = machine.world.engine := by
  rw [world_answer]

theorem engine_enter (machine : Machine) (body : Body) (receiver : Value) (arguments : List Value)
    (purpose : Purpose) :
    (machine.enter body receiver arguments purpose).world.engine = machine.world.engine := by
  unfold Machine.enter
  split
  · rfl
  · cases purpose with
    | call => exact engine_answer machine _
    | finalize => rfl

theorem engine_leave (machine : Machine) (body : Body) (purpose : Purpose) :
    (machine.leave body purpose).world.engine = machine.world.engine := by
  unfold Machine.leave
  split
  · rfl
  · cases purpose with
    | call => exact engine_answer _ _
    | finalize => rfl

theorem world_define_scripted (running : machine.world.engine.running = true)
    (classId : ClassId) (name : String) (constructor : Body) (methods : List (String × Body))
    (finalizer : Body) :
    (machine.world.defineScripted classId name constructor methods finalizer).1 =
      machine.world.inscribe (.define classId (scripted name constructor methods finalizer)) := by
  unfold World.defineScripted World.inscribe
  dsimp only
  rw [if_pos running]
  cases machine.world.engine.registry.checkOpen classId <;> rfl

theorem retains_reclaim (world : World) (id : ObjectId) :
    World.Retains
      ((if world.references id = 0 then world.finalizing id else []).foldl World.inscribe world)
      (world.reclaim id).1 := by
  unfold World.reclaim
  cases found : world.engine.heap.get? id with
  | none =>
      have writes : world.finalizing id = [] := by
        simp [World.finalizing, World.classOf?, World.object?, Value.object?, found]
      simp only [writes, ite_self]
      exact .refl world
  | some object =>
      rw [World.references_of_get id found]
      dsimp only
      split
      · exact .of_engine (World.engine_run_finalizer world id)
      · exact .of_engine rfl

theorem engine_record (machine : Machine) (label : String) :
    (machine.record label).world.engine = machine.world.engine := by
  unfold Machine.record
  split <;> rfl

theorem retains_perform_step (served : machine.world.Served) (step : Step)
    (running : machine.world.engine.running = true)
    (goes : (machine.perform step).world.engine.running = true) :
    World.Retains ((machine.inscribing (.perform step)).foldl World.inscribe machine.world)
      (machine.perform step).world := by
  cases step with
  | act label command keep =>
      simp only [inscribing]
      cases allowed : machine.isAllowed command with
      | true =>
          have performed : (machine.perform (.act label command keep)).world = _ :=
            (@perform_act machine machine.agenda _ _ _ allowed).1
          rw [performed] at goes ⊢
          exact World.retains_perform machine.read served command running goes
      | false =>
          have forbidden : (machine.perform (.act label command keep)).world = machine.world :=
            (@perform_act_forbidden machine machine.agenda _ _ _ allowed).1
          rw [forbidden]
          exact .refl _
  | define label classId name constructor methods finalizer =>
      have defined : (machine.perform
          (.define label classId name constructor methods finalizer)).world = _ :=
        world_define_scripted running classId name constructor methods finalizer
      rw [defined]
      exact .refl _
  | iterate label times steps => exact .of_engine rfl
  | unknown label => exact .of_engine rfl

/-- A task writes what it is said to write. Besides, it leaves the registry as it is and every
object that it leaves of its kind. -/
theorem retains_carry_out (served : machine.world.Served) (task : Task)
    (running : machine.world.engine.running = true)
    (goes : (machine.carryOut task).world.engine.running = true) :
    World.Retains ((machine.inscribing task).foldl World.inscribe machine.world)
      (machine.carryOut task).world := by
  cases task with
  | release value => exact World.retains_release machine.world value
  | drop held => exact .of_engine (World.engine_drop_reference machine.world held)
  | reclaim id => exact retains_reclaim machine.world id
  | remove id => exact World.retains_remove_object machine.world id
  | drain count => exact World.retains_drain machine.world count
  | reportCollection finalizedBefore =>
      exact (World.moves_report_collection finalizedBefore).retains
  | report event => exact .of_engine rfl
  | bind bridge route handle link =>
      exact .of_engine (World.engine_bind_signal machine.world bridge route handle link)
  | endCall bridge => exact World.retains_end_call machine.world bridge
  | settle bridge => exact .of_engine (engine_settle_bridge machine.world bridge)
  | answer reply => exact .of_engine (engine_answer machine reply)
  | enter body receiver arguments purpose =>
      exact .of_engine (engine_enter machine body receiver arguments purpose)
  | leave body purpose => exact .of_engine (engine_leave machine body purpose)
  | perform step => exact retains_perform_step served step running goes
  | finish label => exact .of_engine (engine_record machine label)
  | iterate times steps => cases times <;> exact .of_engine rfl

theorem Attained.retains_step (attained : machine.Attained)
    (running : machine.world.engine.running = true)
    (goes : machine.step.world.engine.running = true) :
    World.Retains (machine.inscriptions.foldl World.inscribe machine.world) machine.step.world := by
  unfold inscriptions
  cases shape : machine.agenda with
  | nil =>
      rw [step_of_nil shape]
      exact .refl _
  | cons task rest =>
      rw [step_of_cons shape] at goes ⊢
      exact @retains_carry_out { machine with agenda := rest } attained.kept.grasp.served task
        running goes

end Steps

end Machine

end ScriptSignal
