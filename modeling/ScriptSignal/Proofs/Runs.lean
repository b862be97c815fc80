import ScriptSignal.Proofs.Effects

/-!
# The runs of a machine

What one step of a machine does to its world and its agenda is said once, for all steps.
From this it follows that a machine whose scripts speak of known handles only never comes
across another handle.
-/

namespace ScriptSignal

set_option autoImplicit false

def Step.Known (step : Step) (world : World) : Prop := AllWithin world.size step.literals

theorem Step.known_of_no_objects {step : Step} (world : World)
    (none : step.literals.all fun value => !value.isObject) : step.Known world := by
  intro value member
  have plain := List.all_eq_true.1 none value member
  cases value with
  | object id => cases plain
  | _ => trivial

namespace Machine

structure Grounded (machine : Machine) : Prop where
  world : machine.world.Grounded
  agenda : ∀ task ∈ machine.agenda, task.Within machine.world.size
  frame : machine.frame.Within machine.world.size
  callers : ∀ frame ∈ machine.callers, frame.Within machine.world.size

theorem grounded_start (setting : Setting) : (start setting).Grounded where
  world := World.grounded_start setting
  agenda := by
    intro task member
    simp [start] at member
  frame := ⟨trivial, by simp [start, Frame.outermost, AllWithin]⟩
  callers := by
    intro frame member
    simp [start] at member

section Parts

variable (machine : Machine) (operation : World → Outcome)

@[simp] theorem world_act :
    (machine.act operation).world = (operation machine.world).1 := rfl

@[simp] theorem agenda_act :
    (machine.act operation).agenda = (operation machine.world).2 ++ machine.agenda := rfl

end Parts

theorem answer_cases (machine : Machine) (reply : Reply) :
    (machine.answer reply).world = machine.world ∨
      ∃ register kept, reply = .value kept ∧
        (machine.answer reply).world = machine.world.setRegister register kept := by
  unfold answer
  dsimp only
  split
  · rename_i register kept keeps
    exact .inr ⟨register, kept, rfl, rfl⟩
  · exact .inl rfl

theorem parts_answer (machine : Machine) (reply : Reply) :
    (machine.answer reply).agenda = machine.agenda ∧
      (machine.answer reply).frame = { machine.frame with reply } ∧
      (machine.answer reply).callers = machine.callers := by
  unfold answer
  dsimp only
  split <;> exact ⟨rfl, rfl, rfl⟩

theorem within_read {frame : Frame} {world : World} (grounded : world.Grounded)
    (within : frame.Within world.size) {operand : Operand}
    (literals : AllWithin world.size operand.literals) :
    (frame.read world.client.registers operand).Within world.size := by
  cases operand with
  | literal value => exact literals value (by simp [Operand.literals])
  | register name =>
      simp only [Frame.read]
      cases found : world.client.registers.find? name with
      | none => trivial
      | some value => exact grounded.registers name value found
  | self => exact within.receiver
  | argument index =>
      simp only [Frame.read]
      cases found : frame.arguments[index]? with
      | none => trivial
      | some value => exact within.arguments value (List.mem_of_getElem? found)
  | argumentCount => trivial

theorem literals_of_operand {command : Command} {operand : Operand}
    (member : operand ∈ command.operands) {size : Nat}
    (literals : AllWithin size command.literals) : AllWithin size operand.literals := by
  intro value inside
  exact literals value (List.mem_append_left _ (List.mem_flatMap.2 ⟨operand, member, inside⟩))

/-- What the first task of an agenda does to the world, and what it puts before the rest. -/
inductive Stepped (machine : Machine) (rest : List Task) : Task → Machine → Prop
  | lawful {task : Task} {after : Machine} {outcome : Outcome}
      (lawful : outcome.Lawful machine.world) (world : after.world = outcome.1)
      (agenda : after.agenda = outcome.2 ++ rest) : Stepped machine rest task after
  | reclaim {after : Machine} {id : ObjectId} {object : Object}
      (found : machine.world.engine.heap.get? id = some object) (dead : object.refCount = 0)
      (world : after.world = (machine.world.runFinalizer id).1)
      (agenda : after.agenda = (machine.world.runFinalizer id).2 ++ .remove id :: rest) :
      Stepped machine rest (.reclaim id) after
  | remove {after : Machine} {id : ObjectId}
      (world : after.world = (machine.world.removeObject id).1)
      (agenda : after.agenda = (machine.world.removeObject id).2 ++ rest) :
      Stepped machine rest (.remove id) after
  | bind {after : Machine} {id : BridgeId} {route : Route} {handle : Value}
      {link : Option StrongRef}
      (world : after.world = (machine.world.bindSignal id route handle link).1)
      (agenda : after.agenda = (machine.world.bindSignal id route handle link).2 ++ rest) :
      Stepped machine rest (.bind id route handle link) after
  | slot {after : Machine} {label : String} {operand : Operand} {classId : ClassId}
      {key : Option Key} {keep : Option String}
      (world : after.world = machine.world.setSlot (machine.read operand) classId key)
      (agenda : after.agenda = .answer .nothing :: .finish label :: rest) :
      Stepped machine rest (.perform (.act label (.object (.setSlot operand classId key)) keep))
        after

section Step

variable {machine : Machine} {rest : List Task}

theorem stepped_plain {task : Task} {after : Machine} {outcome : Outcome}
    (plain : outcome.Plain machine.world) (world : after.world = outcome.1)
    (agenda : after.agenda = outcome.2 ++ rest) : Stepped machine rest task after :=
  .lawful plain.lawful world agenda

theorem stepped_schedule {task : Task} {after : Machine} (tasks : List Task)
    (world : after.world = machine.world) (agenda : after.agenda = tasks ++ rest)
    (ordinary : ∀ task ∈ tasks, task.Ordinary)
    (within : ∀ task ∈ tasks, task.Within machine.world.size) :
    Stepped machine rest task after := by
  have plain : Outcome.Plain machine.world (machine.world, tasks) := ⟨.refl, ordinary, within⟩
  exact stepped_plain plain world agenda

theorem stepped_answer {task : Task} {before : Machine} {reply : Reply}
    (grounded : machine.world.Grounded) (world : before.world = machine.world)
    (agenda : before.agenda = rest) (known : reply.Within machine.world.size) :
    Stepped machine rest task (before.answer reply) := by
  have parts := parts_answer before reply
  rcases answer_cases before reply with same | ⟨register, kept, rfl, written⟩
  · exact stepped_schedule [] (same.trans world) (parts.1.trans agenda) (by simp) (by simp)
  · have changes := World.changes_set_register grounded register known
    refine stepped_plain (World.plain_nothing changes) ?_ ?_
    · rw [written, world]
    · rw [parts.1, agenda]
      rfl

theorem ordinary_of_steps (steps : List Step) :
    ∀ task ∈ steps.map Task.perform, task.Ordinary := by
  intro task member
  obtain ⟨step, -, rfl⟩ := List.mem_map.1 member
  trivial

theorem within_of_steps {steps : List Step} {size : Nat}
    (literals : AllWithin size (Step.literalsOfAll steps)) :
    ∀ task ∈ steps.map Task.perform, task.Within size := by
  intro task member
  obtain ⟨step, inList, rfl⟩ := List.mem_map.1 member
  intro value inside
  exact literals value (Step.mem_literals_of_all.2 ⟨step, inList, inside⟩)

theorem literals_of_body {body : Body} {size : Nat} (literals : AllWithin size body.literals) :
    AllWithin size (Step.literalsOfAll body.steps) ∧ AllWithin size body.returned.literals := by
  cases body with
  | mk steps returned thrown =>
      simp only [Body.literals, all_within_append] at literals
      exact literals

theorem stepped_enter {body : Body} {receiver : Value} {arguments : List Value}
    {purpose : Purpose} (grounded : machine.world.Grounded)
    (literals : AllWithin machine.world.size body.literals) :
    Stepped machine rest (.enter body receiver arguments purpose)
      ({ machine with agenda := rest }.enter body receiver arguments purpose) := by
  unfold enter
  split
  · refine stepped_schedule (body.steps.map Task.perform ++ [Task.leave body purpose]) rfl rfl
      ?_ ?_
    · intro task member
      rcases List.mem_append.1 member with step | last
      · exact ordinary_of_steps _ task step
      · cases List.mem_singleton.1 last
        trivial
    · intro task member
      rcases List.mem_append.1 member with step | last
      · exact within_of_steps (literals_of_body literals).1 task step
      · cases List.mem_singleton.1 last
        exact literals
  · cases purpose with
    | call => exact stepped_answer grounded rfl rfl trivial
    | finalize => exact stepped_schedule [] rfl rfl (by simp) (by simp)

theorem within_result {body : Body} (grounded : machine.world.Grounded)
    (frame : machine.frame.Within machine.world.size)
    (literals : AllWithin machine.world.size body.literals) :
    (machine.result body).Within machine.world.size := by
  unfold result
  split
  · trivial
  · exact within_read grounded frame (literals_of_body literals).2

theorem stepped_leave {body : Body} {purpose : Purpose} (grounded : machine.world.Grounded)
    (frame : machine.frame.Within machine.world.size)
    (literals : AllWithin machine.world.size body.literals) :
    Stepped machine rest (.leave body purpose)
      ({ machine with agenda := rest }.leave body purpose) := by
  unfold leave
  split
  · exact stepped_schedule [] rfl rfl (by simp) (by simp)
  · cases purpose with
    | call =>
        dsimp only
        refine stepped_answer grounded rfl rfl ?_
        exact within_result grounded frame literals
    | finalize => exact stepped_schedule [] rfl rfl (by simp) (by simp)

/-- A step begins and acts, and is listed in the end. -/
theorem perform_act {label : String} {command : Command} {keep : Option String}
    (allowed : machine.isAllowed command = true) :
    (({ machine with agenda := rest } : Machine).perform (.act label command keep)).world =
        (machine.world.perform (machine.frame.read machine.world.client.registers) command).1 ∧
      (({ machine with agenda := rest } : Machine).perform (.act label command keep)).agenda =
        (machine.world.perform (machine.frame.read machine.world.client.registers) command).2
          ++ .finish label :: rest := by
  have begun : (Machine.begin { machine with agenda := rest } label keep).isAllowed command
      = true := by
    cases command <;> exact allowed
  simp only [perform, begun, if_true]
  exact ⟨rfl, rfl⟩

theorem perform_act_forbidden {label : String} {command : Command} {keep : Option String}
    (forbidden : machine.isAllowed command = false) :
    (({ machine with agenda := rest } : Machine).perform (.act label command keep)).world =
        machine.world ∧
      (({ machine with agenda := rest } : Machine).perform (.act label command keep)).agenda =
        .answer (.refused .badStep) :: .finish label :: rest := by
  have begun : (Machine.begin { machine with agenda := rest } label keep).isAllowed command
      = false := by
    cases command <;> exact forbidden
  simp only [perform, begun]
  exact ⟨rfl, rfl⟩

theorem stepped_act {label : String} {command : Command} {keep : Option String}
    (grounded : machine.world.Grounded) (frame : machine.frame.Within machine.world.size)
    (literals : AllWithin machine.world.size command.literals) :
    Stepped machine rest (.perform (.act label command keep))
      ({ machine with agenda := rest }.perform (.act label command keep)) := by
  by_cases allowed : machine.isAllowed command = true
  · obtain ⟨world, agenda⟩ := @perform_act machine rest label command keep allowed
    by_cases slot : ∃ operand classId key, command = .object (.setSlot operand classId key)
    · obtain ⟨operand, classId, key, rfl⟩ := slot
      by_cases running : machine.world.engine.running = true
      · refine .slot ?_ ?_
        · simp [world, World.perform, World.performRunning, World.performObject, running,
            World.done, read]
        · simp [agenda, World.perform, World.performRunning, World.performObject, running,
            World.done]
      · refine stepped_schedule [.answer (.refused .noEngine), .finish label] ?_ ?_
          (by simp [Task.Ordinary]) (by simp [Task.Within, Reply.Within])
        · simp [world, World.perform, Command.needsEngine, running, World.done]
        · simp [agenda, World.perform, Command.needsEngine, running, World.done]
    · have lawful : Outcome.Lawful machine.world
          (machine.world.perform (machine.frame.read machine.world.client.registers)
            command) := by
        refine World.lawful_perform grounded ?_ ?_ ?_
        · rintro operand classId key rfl
          exact slot ⟨operand, classId, key, rfl⟩
        · intro operand member
          exact within_read grounded frame (literals_of_operand member literals)
        · exact fun value member => literals value (List.mem_append_right _ member)
      have finished := lawful.append (by simp [Task.Ordinary])
        (by simp [Task.Within] : ∀ size, ∀ task ∈ [Task.finish label], task.Within size)
      exact .lawful finished world (by rw [agenda, List.append_assoc]; rfl)
  · have forbidden : machine.isAllowed command = false := by simpa using allowed
    obtain ⟨world, agenda⟩ := @perform_act_forbidden machine rest label command keep forbidden
    exact stepped_schedule [.answer (.refused .badStep), .finish label] world agenda
      (by simp [Task.Ordinary]) (by simp [Task.Within, Reply.Within])

theorem stepped_perform {step : Step} (grounded : machine.world.Grounded)
    (frame : machine.frame.Within machine.world.size)
    (literals : AllWithin machine.world.size step.literals) :
    Stepped machine rest (.perform step) ({ machine with agenda := rest }.perform step) := by
  cases step with
  | act label command keep => exact stepped_act grounded frame literals
  | define label classId name constructor methods finalizer =>
      have lawful := (@World.plain_define_scripted machine.world classId name constructor
        methods finalizer literals).lawful
      have finished := lawful.append (by simp [Task.Ordinary])
        (by simp [Task.Within] : ∀ size, ∀ task ∈ [Task.finish label], task.Within size)
      refine .lawful finished rfl ?_
      rw [List.append_assoc]
      rfl
  | iterate label times steps =>
      refine stepped_schedule [.iterate times steps, .answer .nothing, .finish label] rfl rfl
        (by simp [Task.Ordinary]) ?_
      intro task member
      simp only [List.mem_cons, List.not_mem_nil, or_false] at member
      rcases member with rfl | rfl | rfl
      · exact literals
      · trivial
      · trivial
  | unknown label =>
      exact stepped_schedule [.answer (.refused .badStep), .finish label] rfl rfl
        (by simp [Task.Ordinary]) (by simp [Task.Within, Reply.Within])

theorem stepped_record (label : String) {task : Task} :
    Stepped machine rest task ({ machine with agenda := rest }.record label) := by
  unfold record
  split
  · exact stepped_schedule [] rfl rfl (by simp) (by simp)
  · exact stepped_schedule [] rfl rfl (by simp) (by simp)

theorem stepped_carry_out {task : Task} (grounded : machine.world.Grounded)
    (frame : machine.frame.Within machine.world.size) (known : task.Within machine.world.size) :
    Stepped machine rest task ({ machine with agenda := rest }.carryOut task) := by
  cases task with
  | release value => exact stepped_plain (World.plain_release grounded value) rfl rfl
  | drop held => exact stepped_plain (World.plain_drop_reference _ held) rfl rfl
  | reclaim id =>
      simp only [carryOut]
      cases found : machine.world.engine.heap.get? id with
      | none =>
          refine stepped_schedule [] ?_ ?_ (by simp) (by simp)
          · simp [World.reclaim, found]
          · simp [World.reclaim, found]
      | some object =>
          by_cases dead : object.refCount = 0
          · refine .reclaim found dead ?_ ?_
            · simp [World.reclaim, found, dead]
            · simp [World.reclaim, found, dead]
          · refine stepped_plain (World.plain_nothing (World.changes_emit _
              (.revived id object.refCount))) ?_ ?_
            · simp [World.reclaim, found, dead]
            · simp [World.reclaim, found, dead]
  | remove id => exact .remove rfl rfl
  | drain count => exact stepped_plain (World.plain_drain grounded count) rfl rfl
  | reportCollection finalizedBefore =>
      exact stepped_plain (World.plain_report_collection _ finalizedBefore) rfl rfl
  | report event => exact stepped_plain (World.plain_nothing (World.changes_emit _ event)) rfl rfl
  | bind bridge route handle link => exact .bind rfl rfl
  | endCall bridge => exact .lawful (.regular (World.regular_end_call _ bridge)) rfl rfl
  | settle bridge => exact .lawful (.regular (World.regular_settle_bridge .refl bridge)) rfl rfl
  | answer reply => exact stepped_answer grounded rfl rfl known
  | enter body receiver arguments purpose => exact stepped_enter grounded known.1
  | leave body purpose => exact stepped_leave grounded frame known
  | perform step => exact stepped_perform grounded frame known
  | finish label => exact stepped_record label
  | iterate times steps =>
      cases times with
      | zero => exact stepped_schedule [] rfl rfl (by simp) (by simp)
      | succ times =>
          refine stepped_schedule (steps.map Task.perform ++ [.iterate times steps]) rfl rfl ?_ ?_
          · intro task member
            rcases List.mem_append.1 member with step | last
            · exact ordinary_of_steps _ task step
            · cases List.mem_singleton.1 last
              trivial
          · intro task member
            rcases List.mem_append.1 member with step | last
            · exact within_of_steps known task step
            · cases List.mem_singleton.1 last
              exact known

theorem Stepped.persists {task : Task} {after : Machine} (stepped : Stepped machine rest task after)
    (running : after.world.engine.running = true) :
    World.Persists machine.world after.world := by
  cases stepped with
  | lawful lawful world agenda =>
      rw [world] at running ⊢
      exact lawful.effect.persists running
  | @reclaim _ id object found dead world agenda =>
      rw [world]
      unfold World.runFinalizer
      split
      · exact .refl _
      · split
        · exact World.persists_finalize_signal _ _ _
        · exact .refl _
  | remove world agenda =>
      rw [world]
      exact World.persists_remove_object _ _
  | bind world agenda =>
      rw [world]
      exact World.persists_bind_signal _ _ _ _ _
  | slot world agenda =>
      rw [world]
      exact World.persists_set_slot _ _ _ _

theorem Stepped.grounded {task : Task} {after : Machine} (stepped : Stepped machine rest task after)
    (grounded : machine.world.Grounded) (running : after.world.engine.running = true) :
    after.world.Grounded := by
  cases stepped with
  | lawful lawful world agenda =>
      rw [world] at running ⊢
      exact lawful.effect.grounded grounded running
  | @reclaim _ id object found dead world agenda =>
      have regular := World.regular_run_finalizer grounded id
      rw [world] at running ⊢
      exact regular.effect.grounded grounded running
  | remove world agenda =>
      rw [world]
      exact World.grounded_remove_object grounded _
  | bind world agenda =>
      rw [world]
      exact World.grounded_bind_signal grounded _ _ _ _
  | slot world agenda =>
      rw [world]
      exact World.grounded_set_slot grounded _ _ _

theorem releases_of_remove_object (world : World) (id : ObjectId) :
    ∀ task ∈ (world.removeObject id).2, ∃ value, task = .release value := by
  unfold World.removeObject
  split
  · simp
  · intro task member
    obtain ⟨value, -, rfl⟩ := List.mem_map.1 member
    exact ⟨value, rfl⟩

theorem Stepped.within {task : Task} {after : Machine} (stepped : Stepped machine rest task after)
    (grounded : machine.world.Grounded) (known : task.Within machine.world.size)
    (waiting : ∀ task ∈ rest, task.Within machine.world.size)
    (running : after.world.engine.running = true) :
    ∀ task ∈ after.agenda, task.Within after.world.size := by
  have persists := stepped.persists running
  have later : ∀ task ∈ rest, task.Within after.world.size :=
    fun task member => (waiting task member).mono persists.size
  cases stepped with
  | lawful lawful world agenda =>
      intro task member
      rw [agenda] at member
      rcases List.mem_append.1 member with new | old
      · rw [world] at running ⊢
        exact lawful.within running task new
      · exact later task old
  | @reclaim _ id object found dead world agenda =>
      have regular := World.regular_run_finalizer grounded id
      intro task member
      rw [agenda] at member
      rcases List.mem_append.1 member with new | old
      · rw [world] at running ⊢
        exact regular.within running task new
      · rcases List.mem_cons.1 old with rfl | old
        · exact Nat.lt_of_lt_of_le (World.within_of_get found) persists.size
        · exact later task old
  | remove world agenda =>
      intro task member
      rw [agenda] at member
      rcases List.mem_append.1 member with new | old
      · obtain ⟨value, rfl⟩ := releases_of_remove_object _ _ task new
        trivial
      · exact later task old
  | bind world agenda =>
      intro task member
      rw [agenda] at member
      rcases List.mem_append.1 member with new | old
      · rw [world]
        exact (World.within_of_bind_signal known task new).2
      · exact later task old
  | slot world agenda =>
      intro task member
      rw [agenda] at member
      simp only [List.mem_cons] at member
      rcases member with rfl | rfl | old
      · trivial
      · trivial
      · exact later task old

def Sees (machine : Machine) (size : Nat) : Prop :=
  machine.frame.Within size ∧ ∀ frame ∈ machine.callers, frame.Within size

theorem sees_answer {size : Nat} {before : Machine} (sees : before.Sees size) (reply : Reply) :
    (before.answer reply).Sees size := by
  obtain ⟨-, frame, callers⟩ := parts_answer before reply
  unfold Sees
  rw [frame, callers]
  exact ⟨⟨sees.1.receiver, sees.1.arguments⟩, sees.2⟩

theorem sees_carry_out {size : Nat} {before : Machine} (sees : before.Sees size) {task : Task}
    (known : task.Within size) : (before.carryOut task).Sees size := by
  cases task with
  | answer reply => exact sees_answer sees reply
  | enter body receiver arguments purpose =>
      simp only [carryOut, enter]
      split
      · refine ⟨⟨known.2.1, known.2.2⟩, ?_⟩
        intro frame member
        rcases List.mem_cons.1 member with rfl | old
        · exact sees.1
        · exact sees.2 frame old
      · cases purpose with
        | call => exact sees_answer sees _
        | finalize => exact sees
  | leave body purpose =>
      simp only [carryOut, leave]
      split
      · exact sees
      · rename_i caller callers shape
        have popped : ({ before with frame := caller, callers } : Machine).Sees size :=
          ⟨sees.2 caller (by simp [shape]),
            fun frame member => sees.2 frame (by simp [shape, member])⟩
        cases purpose with
        | call => exact sees_answer popped _
        | finalize => exact popped
  | perform step =>
      have begun : ∀ label keep, (before.begin label keep).Sees size :=
        fun label keep => ⟨⟨sees.1.receiver, sees.1.arguments⟩, sees.2⟩
      cases step with
      | act label command keep =>
          simp only [carryOut, perform]
          split
          · exact begun label keep
          · exact begun label keep
      | define label classId name constructor methods finalizer => exact begun label none
      | iterate label times steps => exact begun label none
      | unknown label => exact begun label none
  | finish label =>
      simp only [carryOut, record]
      split <;> exact sees
  | iterate times steps =>
      cases times with
      | zero => exact sees
      | succ times => exact sees
  | _ => exact sees

theorem step_of_cons {task : Task} (shape : machine.agenda = task :: rest) :
    machine.step = ({ machine with agenda := rest } : Machine).carryOut task := by
  unfold step
  rw [shape]

theorem step_of_nil (shape : machine.agenda = []) : machine.step = machine := by
  unfold step
  rw [shape]

theorem Grounded.stepped (grounded : machine.Grounded) {task : Task}
    (shape : machine.agenda = task :: rest) : Stepped machine rest task machine.step := by
  rw [step_of_cons shape]
  exact stepped_carry_out grounded.world grounded.frame (grounded.agenda task (by simp [shape]))

theorem Grounded.step (grounded : machine.Grounded)
    (running : machine.step.world.engine.running = true) : machine.step.Grounded := by
  cases shape : machine.agenda with
  | nil =>
      rw [step_of_nil shape]
      exact grounded
  | cons task rest =>
      have stepped := grounded.stepped shape
      have grows := (stepped.persists running).size
      have known := grounded.agenda task (by simp [shape])
      have sees : machine.step.Sees machine.world.size := by
        rw [step_of_cons shape]
        have waiting : ({ machine with agenda := rest } : Machine).Sees machine.world.size :=
          ⟨grounded.frame, grounded.callers⟩
        exact sees_carry_out waiting known
      refine ⟨stepped.grounded grounded.world running, ?_, sees.1.mono grows, ?_⟩
      · exact stepped.within grounded.world known
          (fun task member => grounded.agenda task (by simp [shape, member])) running
      · exact fun frame member => (sees.2 frame member).mono grows

theorem Grounded.submit (grounded : machine.Grounded) {step : Step}
    (known : AllWithin machine.world.size step.literals) : (machine.submit step).Grounded := by
  refine ⟨grounded.world, ?_, grounded.frame, grounded.callers⟩
  intro task member
  rcases List.mem_append.1 member with old | new
  · exact grounded.agenda task old
  · cases List.mem_singleton.1 new
    exact known

end Step

/-- What every step keeps is kept by a run, as long as the machine is safe. -/
theorem run_of_step (Safe Kept : Machine → Prop) {machine : Machine} (start : Safe machine)
    (kept : Kept machine) (safe : ∀ machine, Safe machine → Safe machine.step)
    (step : ∀ machine, Safe machine → Kept machine → Kept machine.step) (fuel : Nat) :
    Kept (machine.run fuel) := by
  induction fuel generalizing machine with
  | zero => exact kept
  | succ fuel induction =>
      unfold Machine.run
      split
      · exact kept
      · exact induction (safe machine start) (step machine start kept)

def slotWritten? (machine : Machine) : Option ClassId :=
  match machine.agenda with
  | .perform (.act _ (.object (.setSlot _ classId _)) _) :: _ => some classId
  | _ => none

/-- The machines that come about, up to the end of the engine, while clients and scripts do
as they like, except that they know no handle before its object was allocated and that nobody
writes the slot of an instance of one class. A client takes its turn when nothing is left to
do, but every machine on the way counts. -/
inductive Reachable (classId : ClassId) : Machine → Prop
  | start (setting : Setting) : Reachable classId (start setting)
  | submit {machine : Machine} {step : Step} (reached : Reachable classId machine)
      (idle : machine.agenda = []) (known : step.Known machine.world) :
      Reachable classId (machine.submit step)
  | step {machine : Machine} (reached : Reachable classId machine)
      (running : machine.world.engine.running = true)
      (spared : machine.slotWritten? ≠ some classId) : Reachable classId machine.step

/-- Whether a machine does its work while there is an engine, without writing a slot of the
class. -/
def spares (classId : ClassId) : Nat → Machine → Bool
  | 0, _ => true
  | fuel + 1, machine =>
      machine.agenda.isEmpty ||
        machine.world.engine.running && machine.slotWritten? != some classId
          && spares classId fuel machine.step

theorem Reachable.run {classId : ClassId} {fuel : Nat} {machine : Machine}
    (reached : Reachable classId machine) (spared : spares classId fuel machine = true) :
    Reachable classId (machine.run fuel) := by
  induction fuel generalizing machine with
  | zero => exact reached
  | succ fuel induction =>
      unfold Machine.run
      split
      · exact reached
      · rename_i busy
        simp only [spares, busy, Bool.false_or, Bool.and_eq_true, bne_iff_ne] at spared
        obtain ⟨⟨running, other⟩, later⟩ := spared
        exact induction (reached.step running other) later

end Machine

end ScriptSignal
