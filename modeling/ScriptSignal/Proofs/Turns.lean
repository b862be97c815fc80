import ScriptSignal.Proofs.Hands

/-!
# The turns of a machine

Clients and scripts may do what they like, in any order and with any values, and the engine may
come to its end. What the first task of an agenda does is said once, for all tasks, and with it
how what native code has in hand is kept.
-/

namespace ScriptSignal

set_option autoImplicit false

namespace Task

def Steps : Task → Prop
  | .perform _ | .iterate _ _ => True
  | _ => False

/-- Steps, and what else a step leaves to the script that takes it. -/
def Scripted : Task → Prop
  | .perform _ | .iterate _ _ | .answer _ | .finish _ => True
  | _ => False

def Outlasts : Task → Prop
  | .settle _ | .drop _ => True
  | task => task.Scripted

def Inert : Task → Prop
  | .bind _ _ _ _ | .perform _ | .iterate _ _ | .leave _ _ => False
  | .report event => event.Aside
  | _ => True

def Free (task : Task) : Prop := task.clutched = [] ∧ task.settled = [] ∧ task.ended = []

def leaves : Task → Bool
  | .leave _ _ => true
  | _ => false

end Task

def level (tasks : List Task) : List Task := tasks.takeWhile fun task => !task.leaves

/-- A step is taken when its body has nothing else to do but further steps. -/
def Layered (tasks : List Task) : Prop :=
  ∀ early task late, tasks = early ++ task :: late → task.Steps →
    ∀ next ∈ level late, next.Scripted

namespace Machine

def grasp (machine : Machine) : Grasp where
  world := machine.world
  held := machine.agenda.flatMap Task.clutched
  left := machine.agenda.flatMap Task.settled
  calls := machine.agenda.flatMap Task.ended

/-- What the first task of an agenda does, and what it leaves before the rest. -/
inductive Turn (machine : Machine) (rest : List Task) : Task → Machine → Prop
  | moved {task : Task} {after : Machine} {outcome : Outcome}
      (moves : outcome.Moves True machine.world task.clutched [])
      (bare : task.settled = [] ∧ task.ended = [] ∧ task.leaves = false)
      (spares : ∀ id, machine.world.Spent id → task ≠ .reclaim id ∧ task ≠ .remove id)
      (world : after.world = outcome.1) (agenda : after.agenda = outcome.2 ++ rest)
      (callers : after.callers = machine.callers) : Turn machine rest task after
  | steps {task : Task} {after : Machine} {tasks : List Task} (steps : task.Steps)
      (scripted : ∀ next ∈ tasks, next.Scripted) (world : after.world = machine.world)
      (agenda : after.agenda = tasks ++ rest) (callers : after.callers = machine.callers) :
      Turn machine rest task after
  | enter {body : Body} {receiver : Value} {arguments : List Value} {purpose : Purpose}
      {after : Machine} (world : after.world = machine.world)
      (agenda : after.agenda = body.steps.map Task.perform ++ .leave body purpose :: rest)
      (callers : after.callers = machine.frame :: machine.callers) :
      Turn machine rest (.enter body receiver arguments purpose) after
  | leave {body : Body} {purpose : Purpose} {after : Machine}
      (moves : Outcome.Moves True machine.world [] [] (after.world, []))
      (agenda : after.agenda = rest) (callers : after.callers = machine.callers.tail) :
      Turn machine rest (.leave body purpose) after
  | release {value : Value} {after : Machine}
      (world : after.world = (machine.world.release value).1)
      (agenda : after.agenda = (machine.world.release value).2 ++ rest)
      (callers : after.callers = machine.callers) : Turn machine rest (.release value) after
  | drop {held : StrongRef} {after : Machine}
      (world : after.world = (machine.world.dropReference held).1)
      (agenda : after.agenda = (machine.world.dropReference held).2 ++ rest)
      (callers : after.callers = machine.callers) : Turn machine rest (.drop held) after
  | reclaim {id : ObjectId} {object : Object} {after : Machine}
      (found : machine.world.engine.heap.get? id = some object) (last : object.refCount = 0)
      (world : after.world = (machine.world.runFinalizer id).1)
      (agenda : after.agenda = (machine.world.runFinalizer id).2 ++ .remove id :: rest)
      (callers : after.callers = machine.callers) : Turn machine rest (.reclaim id) after
  | remove {id : ObjectId} {after : Machine}
      (world : after.world = (machine.world.removeObject id).1)
      (agenda : after.agenda = (machine.world.removeObject id).2 ++ rest)
      (callers : after.callers = machine.callers) : Turn machine rest (.remove id) after
  | drain {count : Nat} {after : Machine}
      (world : after.world = (machine.world.drain count).1)
      (agenda : after.agenda = (machine.world.drain count).2 ++ rest)
      (callers : after.callers = machine.callers) : Turn machine rest (.drain count) after
  | collect {label : String} {keep : Option String} {after : Machine}
      (world : after.world = machine.world)
      (agenda : after.agenda = machine.world.collect.2 ++ .finish label :: rest)
      (callers : after.callers = machine.callers) :
      Turn machine rest (.perform (.act label (.object .collect) keep)) after
  | settle {id : BridgeId} {after : Machine}
      (world : after.world = (machine.world.settleBridge id).1)
      (agenda : after.agenda = (machine.world.settleBridge id).2 ++ rest)
      (callers : after.callers = machine.callers) : Turn machine rest (.settle id) after
  | endCall {id : BridgeId} {after : Machine}
      (world : after.world = (machine.world.endCall id).1)
      (agenda : after.agenda = (machine.world.endCall id).2 ++ rest)
      (callers : after.callers = machine.callers) : Turn machine rest (.endCall id) after
  | shutDown {label : String} {keep : Option String} {after : Machine}
      (alone : machine.callers = [])
      (world : after.world =
        { machine.world with engine := .stopped machine.world.engine.mode })
      (agenda : after.agenda =
        (List.range machine.world.bridges.size).map (fun index => Task.settle ⟨index⟩)
          ++ .answer .nothing :: .finish label :: rest)
      (callers : after.callers = machine.callers) :
      Turn machine rest (.perform (.act label .shutDown keep)) after

/-- What every machine keeps that is attained by steps of any kind. -/
structure Kept (machine : Machine) : Prop where
  grasp : machine.grasp.Kept
  guarded : Guarded machine.world [] machine.agenda
  told : ∀ event, Task.report event ∈ machine.agenda → event.Aside
  layered : Layered machine.agenda
  depth : machine.agenda.countP Task.leaves = machine.callers.length
  stopped : machine.world.engine.running = false →
    machine.world.engine = .stopped machine.world.engine.mode ∧
      ∀ task ∈ machine.agenda, task.Outlasts

section Step

variable {machine : Machine} {rest : List Task}

theorem moves_answer {world : World} (before : Machine) (same : before.world = world)
    (reply : Reply) : Outcome.Moves True world [] [] ((before.answer reply).world, []) := by
  apply moves_of_bare ?_ (by simp)
  intro held left calls
  rcases answer_cases before reply with kept | ⟨register, value, -, written⟩
  · rw [kept, same]
    exact .refl
  · rw [written, same]
    exact World.moves_registers _

theorem moves_still (world : World) : Outcome.Moves True world [] [] (world, []) :=
  moves_of_bare (fun _ _ _ => .refl) fun _ member => absurd member List.not_mem_nil

theorem turn_answer (reply : Reply) {task : Task} {before : Machine}
    (bare : task.clutched = [] ∧ task.settled = [] ∧ task.ended = [] ∧ task.leaves = false)
    (other : ∀ id, task ≠ .reclaim id ∧ task ≠ .remove id)
    (world : before.world = machine.world) (agenda : before.agenda = rest)
    (callers : before.callers = machine.callers) :
    Turn machine rest task (before.answer reply) := by
  obtain ⟨sameAgenda, -, sameCallers⟩ := parts_answer before reply
  have moves := moves_answer before world reply
  rw [← bare.1] at moves
  exact .moved moves bare.2 (fun id _ => other id) rfl (sameAgenda.trans agenda)
    (sameCallers.trans callers)

theorem turn_enter (body : Body) (receiver : Value) (arguments : List Value) (purpose : Purpose) :
    Turn machine rest (.enter body receiver arguments purpose)
      ({ machine with agenda := rest }.enter body receiver arguments purpose) := by
  unfold enter
  split
  · exact .enter rfl (List.append_assoc _ _ _) rfl
  · cases purpose with
    | call => exact turn_answer _ ⟨rfl, rfl, rfl, rfl⟩ (by simp) rfl rfl rfl
    | finalize => exact .moved (moves_still machine.world) ⟨rfl, rfl, rfl⟩ (by simp) rfl rfl rfl

theorem turn_leave (body : Body) (purpose : Purpose) :
    Turn machine rest (.leave body purpose)
      ({ machine with agenda := rest }.leave body purpose) := by
  unfold leave
  split
  · rename_i alone
    have none : machine.callers = [] := alone
    exact .leave (moves_still machine.world) rfl (by simp [none])
  · rename_i caller callers shape
    have popped : machine.callers = caller :: callers := shape
    cases purpose with
    | call =>
        obtain ⟨agenda, -, sameCallers⟩ := parts_answer
          { machine with agenda := rest, frame := caller, callers } (machine.result body)
        have moves := @moves_answer machine.world
          { machine with agenda := rest, frame := caller, callers } rfl (machine.result body)
        exact .leave moves agenda (by rw [popped]; exact sameCallers)
    | finalize => exact .leave (moves_still machine.world) rfl (by rw [popped]; rfl)

theorem turn_act {label : String} {command : Command} {keep : Option String}
    (served : machine.world.Served) :
    Turn machine rest (.perform (.act label command keep))
      ({ machine with agenda := rest }.perform (.act label command keep)) := by
  have callers : (({ machine with agenda := rest } : Machine).perform
      (.act label command keep)).callers = machine.callers := by
    simp only [perform]
    split <;> rfl
  have finished : ∀ {outcome : Outcome}, outcome.Moves True machine.world [] [] →
      (({ machine with agenda := rest } : Machine).perform (.act label command keep)).world =
          outcome.1 →
      (({ machine with agenda := rest } : Machine).perform (.act label command keep)).agenda =
          outcome.2 ++ .finish label :: rest →
      Turn machine rest (.perform (.act label command keep))
        (({ machine with agenda := rest } : Machine).perform (.act label command keep)) := by
    intro outcome moves world agenda
    refine .moved (moves.last (bare_finish label)) ⟨rfl, rfl, rfl⟩ (by simp) world ?_ callers
    rw [agenda, List.append_assoc]
    rfl
  by_cases allowed : machine.isAllowed command = true
  · obtain ⟨world, agenda⟩ := @perform_act machine rest label command keep allowed
    by_cases collects : command = .object .collect
    · subst collects
      cases running : machine.world.engine.running with
      | false =>
          have refused : machine.world.perform
              (machine.frame.read machine.world.client.registers) (.object .collect) =
                machine.world.done (.refused .noEngine) := by
            simp [World.perform, Command.needsEngine, running]
          rw [refused] at world agenda
          exact finished (moves_nothing _) world agenda
      | true =>
          have collected : machine.world.perform
              (machine.frame.read machine.world.client.registers) (.object .collect) =
                machine.world.collect := by
            simp [World.perform, running, World.performRunning, World.performObject]
          rw [collected] at world agenda
          have same : machine.world.collect.1 = machine.world := by
            unfold World.collect
            dsimp only
            split <;> rfl
          exact .collect (world.trans same) agenda callers
    · cases running : machine.world.engine.running with
      | false =>
          exact finished (World.moves_perform _ served collects (fun _ => running) fun _ => trivial)
            world agenda
      | true =>
          by_cases ends : command = .shutDown
          · subst ends
            have alone : machine.callers = [] := by
              simpa [isAllowed, depth] using allowed
            have stopped : machine.world.perform
                (machine.frame.read machine.world.client.registers) .shutDown =
                  ({ machine.world with engine := .stopped machine.world.engine.mode },
                    (List.range machine.world.bridges.size).map
                      (fun index => Task.settle ⟨index⟩) ++ [.answer .nothing]) := by
              simp [World.perform, running, World.performRunning, World.shutDown, World.after]
            rw [stopped] at world agenda
            refine .shutDown alone world ?_ callers
            rw [agenda, List.append_assoc]
            rfl
          · exact finished (World.moves_perform _ served collects (fun same => absurd same ends)
              fun _ => trivial)
              world agenda
  · have forbidden : machine.isAllowed command = false := by simpa using allowed
    obtain ⟨world, agenda⟩ := @perform_act_forbidden machine rest label command keep forbidden
    exact finished (moves_nothing _) world agenda

theorem turn_perform (served : machine.world.Served) (step : Step) :
    Turn machine rest (.perform step) ({ machine with agenda := rest }.perform step) := by
  cases step with
  | act label command keep => exact turn_act served
  | define label classId name constructor methods finalizer =>
      have moves :=
          @World.moves_define_scripted True machine.world trivial classId name constructor methods
        finalizer
      refine .moved (moves.last (bare_finish label)) ⟨rfl, rfl, rfl⟩ (by simp) rfl ?_ rfl
      rw [List.append_assoc]
      rfl
  | iterate label times steps =>
      refine .steps trivial ?_ rfl
        (rfl : _ = [.iterate times steps, .answer .nothing, .finish label] ++ rest) rfl
      simp [Task.Scripted]
  | unknown label =>
      have refused := (moves_nothing (.refused .badStep) :
        Outcome.Moves True machine.world [] [] _).last (bare_finish label)
      exact .moved refused ⟨rfl, rfl, rfl⟩ (by simp) rfl rfl rfl

theorem turn_reclaim (id : ObjectId) :
    Turn machine rest (.reclaim id) ({ machine with agenda := rest }.carryOut (.reclaim id)) := by
  have world : (({ machine with agenda := rest } : Machine).carryOut (.reclaim id)).world =
      (machine.world.reclaim id).1 := rfl
  have agenda : (({ machine with agenda := rest } : Machine).carryOut (.reclaim id)).agenda =
      (machine.world.reclaim id).2 ++ rest := rfl
  cases found : machine.world.engine.heap.get? id with
  | none =>
      have same : machine.world.reclaim id = (machine.world, []) := by
        simp [World.reclaim, found]
      rw [same] at world agenda
      refine .moved (moves_still machine.world) ⟨rfl, rfl, rfl⟩ ?_ world agenda rfl
      rintro other spent
      refine ⟨fun same => ?_, by simp⟩
      cases same
      exact World.not_spent_of_missing found spent
  | some object =>
      by_cases last : object.refCount = 0
      · have same : machine.world.reclaim id = ((machine.world.runFinalizer id).1,
            (machine.world.runFinalizer id).2 ++ [.remove id]) := by
          simp [World.reclaim, found, last]
        rw [same] at world agenda
        exact .reclaim found last world (agenda.trans (List.append_assoc _ _ _)) rfl
      · have same : machine.world.reclaim id =
            (machine.world.emit (.revived id object.refCount), []) := by
          simp [World.reclaim, found, last]
        rw [same] at world agenda
        have told : (Event.revived id object.refCount).Aside := trivial
        have moves : Outcome.Moves True machine.world [] []
            (machine.world.emit (.revived id object.refCount), []) :=
          moves_of_bare (fun _ _ _ => World.moves_emit told) fun _ member =>
            absurd member List.not_mem_nil
        refine .moved moves ⟨rfl, rfl, rfl⟩ ?_ world agenda rfl
        rintro other ⟨held, reached, spent⟩
        refine ⟨fun same => ?_, by simp⟩
        cases same
        cases found.symm.trans reached
        exact last spent

theorem Kept.holds_of_bind {id : BridgeId} {route : Route} {handle : Value}
    {link : Option StrongRef} (kept : machine.Kept)
    (shape : machine.agenda = .bind id route handle link :: rest) :
    machine.world.holdsBridge id = true := by
  have running : machine.world.engine.running = true := by
    cases runs : machine.world.engine.running with
    | true => rfl
    | false =>
        have outlasts := (kept.stopped runs).2 (.bind id route handle link) (by simp [shape])
        exact outlasts.elim
  rw [World.holds_bridge_iff]
  rcases kept.guarded [] id route handle link rest shape with ⟨bridge, found, installed⟩ | ends
  · exact .inr ⟨bridge, found, .inl ⟨installed, running⟩⟩
  · have calls : 0 < machine.grasp.calls.count id := by
      apply List.count_pos_iff.2
      have listed : id ∈ rest.flatMap Task.ended := by simpa using ends
      have split : machine.grasp.calls = [] ++ rest.flatMap Task.ended := by
        change machine.agenda.flatMap Task.ended = _
        rw [shape, List.flatMap_cons]
        rfl
      rw [split]
      exact listed
    have active := kept.grasp.active id
    cases found : machine.world.bridge? id with
    | none =>
        have none : machine.grasp.world.bridge? id = none := found
        rw [none, Option.elim_none] at active
        omega
    | some bridge =>
        have here : machine.grasp.world.bridge? id = some bridge := found
        rw [here, Option.elim_some] at active
        exact .inr ⟨bridge, rfl, .inr (by omega)⟩

theorem Kept.turn (kept : machine.Kept) {task : Task} (shape : machine.agenda = task :: rest) :
    Turn machine rest task machine.step := by
  rw [step_of_cons shape]
  have still : ∀ {after : Machine}, task.clutched = [] →
      task.settled = [] ∧ task.ended = [] ∧ task.leaves = false →
      (∀ id, task ≠ .reclaim id ∧ task ≠ .remove id) → after.world = machine.world →
      after.agenda = rest → after.callers = machine.callers → Turn machine rest task after := by
    intro after clutched bare other world agenda callers
    have moves := moves_still machine.world
    rw [← clutched] at moves
    exact .moved moves bare (fun id _ => other id) world agenda callers
  cases task with
  | release value => exact .release rfl rfl rfl
  | drop held => exact .drop rfl rfl rfl
  | reclaim id => exact turn_reclaim id
  | remove id => exact .remove rfl rfl rfl
  | drain count => exact .drain rfl rfl rfl
  | reportCollection before =>
      exact .moved (World.moves_report_collection before) ⟨rfl, rfl, rfl⟩ (by simp) rfl rfl rfl
  | report event =>
      have aside := kept.told event (by simp [shape])
      have moves : Outcome.Moves True machine.world [] [] (machine.world.emit event, []) :=
        moves_of_bare (fun _ _ _ => World.moves_emit aside) fun _ member =>
          absurd member List.not_mem_nil
      exact .moved moves ⟨rfl, rfl, rfl⟩ (by simp) rfl rfl rfl
  | bind id route handle link =>
      have holds := kept.holds_of_bind shape
      exact .moved (World.moves_bind_signal trivial holds route handle link) ⟨rfl, rfl, rfl⟩
        (by simp)
        rfl rfl rfl
  | endCall id => exact .endCall rfl rfl rfl
  | settle id => exact .settle rfl rfl rfl
  | answer reply => exact turn_answer reply ⟨rfl, rfl, rfl, rfl⟩ (by simp) rfl rfl rfl
  | enter body receiver arguments purpose => exact turn_enter body receiver arguments purpose
  | leave body purpose => exact turn_leave body purpose
  | perform step => exact turn_perform kept.grasp.served step
  | finish label =>
      simp only [carryOut, record]
      split <;> exact still rfl ⟨rfl, rfl, rfl⟩ (by simp) rfl rfl rfl
  | iterate times steps =>
      cases times with
      | zero => exact still rfl ⟨rfl, rfl, rfl⟩ (by simp) rfl rfl rfl
      | succ times =>
          refine .steps trivial ?_ rfl
            (rfl : _ = (steps.map Task.perform ++ [Task.iterate times steps]) ++ rest) rfl
          intro next member
          rcases List.mem_append.1 member with step | last
          · obtain ⟨step, -, rfl⟩ := List.mem_map.1 step
            trivial
          · cases List.mem_singleton.1 last
            trivial

end Step

section Hands

variable {machine after : Machine} {rest : List Task} {task : Task}

theorem grasp_of_cons (shape : machine.agenda = task :: rest) :
    machine.grasp = ⟨machine.world, task.clutched ++ rest.flatMap Task.clutched,
      task.settled ++ rest.flatMap Task.settled, task.ended ++ rest.flatMap Task.ended⟩ := by
  simp only [grasp, shape, List.flatMap_cons]

theorem grasp_of_append {tasks : List Task} (agenda : after.agenda = tasks ++ rest) :
    after.grasp = ⟨after.world, tasks.flatMap Task.clutched ++ rest.flatMap Task.clutched,
      tasks.flatMap Task.settled ++ rest.flatMap Task.settled,
      tasks.flatMap Task.ended ++ rest.flatMap Task.ended⟩ := by
  simp only [grasp, agenda, List.flatMap_append]

theorem grasp_moves {tasks : List Task} (shape : machine.agenda = task :: rest)
    (moves : Outcome.Moves True machine.world task.clutched [] (after.world, tasks))
    (bare : task.settled = [] ∧ task.ended = []) (agenda : after.agenda = tasks ++ rest) :
    Moves True machine.grasp after.grasp := by
  rw [grasp_of_cons shape, grasp_of_append agenda, bare.1, bare.2]
  exact moves.moves _ _ _

theorem grasp_of_free {tasks : List Task} (shape : machine.agenda = task :: rest)
    (free : task.Free) (frees : ∀ next ∈ tasks, next.Free)
    (agenda : after.agenda = tasks ++ rest) :
    after.grasp = ⟨after.world, machine.grasp.held, machine.grasp.left, machine.grasp.calls⟩ := by
  have held : tasks.flatMap Task.clutched = [] :=
    List.flatMap_eq_nil_iff.2 fun next member => (frees next member).1
  have left : tasks.flatMap Task.settled = [] :=
    List.flatMap_eq_nil_iff.2 fun next member => (frees next member).2.1
  have calls : tasks.flatMap Task.ended = [] :=
    List.flatMap_eq_nil_iff.2 fun next member => (frees next member).2.2
  rw [grasp_of_cons shape, grasp_of_append agenda, held, left, calls, free.1, free.2.1, free.2.2]

theorem Kept.grasp_of_objects {tasks : List Task} (kept : machine.Kept)
    (shape : machine.agenda = task :: rest) (free : task.Free)
    (frees : ∀ next ∈ tasks, next.Free) (agenda : after.agenda = tasks ++ rest)
    (only : machine.world.OnlyObjects after.world) : after.grasp.Kept := by
  rw [grasp_of_free shape free frees agenda]
  exact kept.grasp.of_same only

theorem free_of_scripted {next : Task} (scripted : next.Scripted) : next.Free := by
  cases next <;> first | exact ⟨rfl, rfl, rfl⟩ | exact scripted.elim

theorem free_of_steps {next : Task} (steps : next.Steps) : next.Free := by
  cases next <;> first | exact ⟨rfl, rfl, rfl⟩ | exact steps.elim

theorem free_of_performs (steps : List Step) : ∀ next ∈ steps.map Task.perform, next.Free := by
  intro next member
  obtain ⟨step, -, rfl⟩ := List.mem_map.1 member
  exact ⟨rfl, rfl, rfl⟩

theorem grasp_of_drops {tasks : List Task} (drops : ∀ next ∈ tasks, ∃ held, next = .drop held)
    (agenda : after.agenda = tasks ++ rest) :
    after.grasp = ⟨after.world, tasks.flatMap Task.clutched ++ rest.flatMap Task.clutched,
      rest.flatMap Task.settled, rest.flatMap Task.ended⟩ := by
  have left : tasks.flatMap Task.settled = [] := by
    refine List.flatMap_eq_nil_iff.2 fun next member => ?_
    obtain ⟨held, rfl⟩ := drops next member
    rfl
  have calls : tasks.flatMap Task.ended = [] := by
    refine List.flatMap_eq_nil_iff.2 fun next member => ?_
    obtain ⟨held, rfl⟩ := drops next member
    rfl
  rw [grasp_of_append agenda, left, calls]
  rfl

/-- What the first task has in hand comes before what the rest has. -/
theorem Kept.grasp_head (kept : machine.Kept) (shape : machine.agenda = task :: rest) :
    Grasp.Kept ⟨machine.world, task.clutched ++ rest.flatMap Task.clutched,
      task.settled ++ rest.flatMap Task.settled, task.ended ++ rest.flatMap Task.ended⟩ := by
  rw [← grasp_of_cons shape]
  exact kept.grasp

/-- A reference that is dropped is released, or the engine is gone. -/
theorem Kept.grasp_drop {held : StrongRef} (kept : machine.Kept)
    (shape : machine.agenda = .drop held :: rest)
    (world : after.world = (machine.world.dropReference held).1)
    (agenda : after.agenda = (machine.world.dropReference held).2 ++ rest) :
    after.grasp.Kept := by
  have before : Grasp.Kept ⟨machine.world, held.value :: rest.flatMap Task.clutched,
      rest.flatMap Task.settled, rest.flatMap Task.ended⟩ := kept.grasp_head shape
  cases running : machine.world.engine.running with
  | true =>
      have same : machine.world.dropReference held =
          (machine.world.emit (.released held.value), [.release held.value]) := by
        simp [World.dropReference, running]
      rw [same] at world agenda
      rw [grasp_of_append agenda, world]
      exact before.letGo (.inl rfl)
  | false =>
      have same : machine.world.dropReference held =
          (machine.world.emit (.hostGone held.value), []) := by
        simp [World.dropReference, running]
      rw [same] at world agenda
      rw [grasp_of_append agenda, world]
      exact before.letGo (.inr rfl)

/-- With the engine every bridge is put on the agenda to be taken down. -/
theorem Kept.grasp_shut_down {label : String} (kept : machine.Kept)
    (shape : machine.agenda = task :: rest) (free : task.Free)
    (world : after.world = { machine.world with engine := .stopped machine.world.engine.mode })
    (agenda : after.agenda =
      ((List.range machine.world.bridges.size).map fun index => Task.settle ⟨index⟩) ++
        .answer .nothing :: .finish label :: rest) : after.grasp.Kept := by
  have before := kept.grasp_head shape
  rw [free.1, free.2.1, free.2.2] at before
  have hands : (((List.range machine.world.bridges.size).map fun index =>
      Task.settle ⟨index⟩).flatMap Task.clutched) = [] := by
    simp [Task.clutched]
  have calls : (((List.range machine.world.bridges.size).map fun index =>
      Task.settle ⟨index⟩).flatMap Task.ended) = [] := by
    simp [Task.ended]
  rw [grasp_of_append agenda, world, hands, calls]
  refine before.shutDown fun id bridge found => ?_
  apply List.mem_append_left
  have place := (Array.getElem?_eq_some_iff.1 found).1
  exact List.mem_flatMap.2 ⟨.settle id, List.mem_map.2 ⟨id.index, List.mem_range.2 place, rfl⟩,
    List.mem_singleton.2 rfl⟩

theorem Kept.grasp_turn (kept : machine.Kept) (shape : machine.agenda = task :: rest)
    (turn : Turn machine rest task after) : after.grasp.Kept := by
  cases turn with
  | @moved task after outcome moves bare spares world agenda callers =>
      obtain ⟨later, tasks⟩ := outcome
      rw [show later = after.world from world.symm] at moves
      exact (grasp_moves shape moves ⟨bare.1, bare.2.1⟩ agenda).kept kept.grasp
  | steps steps scripted world agenda callers =>
      exact kept.grasp_of_objects shape (free_of_steps steps)
        (fun next member => free_of_scripted (scripted next member)) agenda
        (world ▸ World.OnlyObjects.refl _)
  | @enter body receiver arguments purpose after world agenda callers =>
      refine @Kept.grasp_of_objects machine after rest (.enter body receiver arguments purpose)
        (body.steps.map Task.perform ++ [.leave body purpose]) kept shape ⟨rfl, rfl, rfl⟩ ?_ ?_
        (world ▸ World.OnlyObjects.refl _)
      · intro next member
        rcases List.mem_append.1 member with step | last
        · exact free_of_performs _ next step
        · cases List.mem_singleton.1 last
          exact ⟨rfl, rfl, rfl⟩
      · rw [agenda, List.append_assoc]
        rfl
  | leave moves agenda callers =>
      exact (grasp_moves shape moves ⟨rfl, rfl⟩ agenda).kept kept.grasp
  | @release value after world agenda callers =>
      refine kept.grasp_of_objects shape ⟨rfl, rfl, rfl⟩ ?_ agenda
        (world ▸ World.only_objects_release _ value)
      intro next member
      obtain ⟨id, -, -, rfl⟩ := World.task_of_release member
      exact ⟨rfl, rfl, rfl⟩
  | drop world agenda callers => exact kept.grasp_drop shape world agenda
  | @reclaim id object after found last world agenda callers =>
      have moves := (@World.moves_run_finalizer True machine.world [] trivial id).moves
        (rest.flatMap Task.clutched) (rest.flatMap Task.settled) (rest.flatMap Task.ended)
      rw [grasp_of_append agenda, world]
      exact moves.kept (kept.grasp_head shape)
  | @remove id after world agenda callers =>
      refine kept.grasp_of_objects shape ⟨rfl, rfl, rfl⟩ ?_ agenda
        (world ▸ World.only_objects_remove_object _ id)
      intro next member
      obtain ⟨value, rfl⟩ := releases_of_remove_object machine.world id next member
      exact ⟨rfl, rfl, rfl⟩
  | @drain count after world agenda callers =>
      refine kept.grasp_of_objects shape ⟨rfl, rfl, rfl⟩ ?_ agenda
        (world ▸ World.only_objects_drain _ count)
      intro next member
      rcases World.task_of_drain member with ⟨id, rfl⟩ | rfl <;> exact ⟨rfl, rfl, rfl⟩
  | @collect label keep after world agenda callers =>
      refine @Kept.grasp_of_objects machine after rest _
        (machine.world.collect.2 ++ [.finish label]) kept shape ⟨rfl, rfl, rfl⟩ ?_ ?_
        (world ▸ World.OnlyObjects.refl _)
      · intro next member
        rcases List.mem_append.1 member with early | last
        · rcases World.task_of_collect early with rfl | rfl <;> exact ⟨rfl, rfl, rfl⟩
        · cases List.mem_singleton.1 last
          exact ⟨rfl, rfl, rfl⟩
      · rw [agenda, List.append_assoc]
        rfl
  | @settle id after world agenda callers =>
      have before : Grasp.Kept ⟨machine.world, rest.flatMap Task.clutched,
          id :: rest.flatMap Task.settled, rest.flatMap Task.ended⟩ := kept.grasp_head shape
      rw [grasp_of_drops (World.drops_of_settle_bridge machine.world id) agenda, world]
      exact before.settle
  | @endCall id after world agenda callers =>
      have before : Grasp.Kept ⟨machine.world, rest.flatMap Task.clutched,
          rest.flatMap Task.settled, id :: rest.flatMap Task.ended⟩ := kept.grasp_head shape
      rw [grasp_of_drops (World.drops_of_settle_bridge _ id) agenda, world]
      exact before.endCall
  | shutDown alone world agenda callers =>
      exact kept.grasp_shut_down shape ⟨rfl, rfl, rfl⟩ world agenda

end Hands

end Machine

end ScriptSignal
