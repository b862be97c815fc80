import ScriptSignal.Proofs.Bounds
import ScriptSignal.Proofs.Settling

/-!
# Clients that keep no ledger

A client may free references that are not its own, use handles of objects that are gone, and
write into slots. Counts then say little about who holds what, but the work is done all the
same: every request comes to its end, and an object without references is on the agenda or in
the backlog until it is removed.
-/

namespace ScriptSignal

set_option autoImplicit false

/-- What any client of Signals may ask for. It makes no bridges without a class, and leaves
the engine up. -/
def Command.Permitted : Command → Prop
  | .bridge (.create _ _ _) | .shutDown => False
  | _ => True

theorem permitted_of_offered {command : Command} (offered : command.Offered) :
    command.Permitted := by
  unfold Command.Permitted
  split
  · exact offered
  · exact offered
  · trivial

/-- A task loses no object that waits for its removal, whatever counts say. -/
structure Outcome.Heeds (before : World) (task : Task) (outcome : Outcome) : Prop where
  awaited : ∀ id rest, outcome.1.Spent id →
    (before.Spent id → before.Awaited (task :: rest) id) →
      outcome.1.Awaited (outcome.2 ++ rest) id
  prompt : before.engine.mode = .immediate → before.engine.backlog.items = [] →
    outcome.1.engine.backlog.items = []

namespace World

section Tasks

variable {world after : World}

theorem heeds_of_settles {task : Task} {outcome : Outcome} (settles : outcome.Settles world task) :
    outcome.Heeds world task :=
  ⟨settles.awaited, settles.prompt⟩

theorem heeds_of_upkeep {task : Task} {tasks : List Task} (upkeep : Upkeep world after)
    (reclaims : ∀ id, task ≠ .reclaim id) (removes : ∀ id, task ≠ .remove id) :
    Outcome.Heeds world task (after, tasks) where
  awaited := by
    intro id rest spent waits
    rcases (waits (upkeep.spent id spent)).of_cons with same | same | later
    · exact absurd same (reclaims id)
    · exact absurd same (removes id)
    · exact upkeep.awaited later
  prompt := fun _ => upkeep.prompt

/-- A reference that is not counted is not given back, so nothing changes. -/
theorem heeds_release (value : Value) :
    Outcome.Heeds world (.release value) (world.release value) := by
  cases value with
  | object id =>
      by_cases counted : 0 < world.references id
      · apply heeds_of_settles (settles_release _)
        rintro other same
        cases same
        exact counted
      · obtain ⟨event, same⟩ := release_of_unreferenced (Nat.eq_zero_of_not_pos counted)
        rw [same]
        exact heeds_of_upkeep (upkeep_emit world event) (by simp) (by simp)
  | _ => exact heeds_of_upkeep (.refl world) (by simp) (by simp)

theorem heeds_remove (id : ObjectId) :
    Outcome.Heeds world (.remove id) (world.removeObject id) where
  awaited := fun _ _ => awaited_remove_object
  prompt := by
    intro immediate empty
    rcases remove_object_cases world id with ⟨-, same⟩ | ⟨object, -, same⟩
    · rw [same]
      exact empty
    · rw [same]
      exact empty

theorem heeds_bind (tidy : world.Tidy) (id : BridgeId) (route : Route) (handle : Value)
    (link : Option StrongRef) :
    Outcome.Heeds world (.bind id route handle link) (world.bindSignal id route handle link) := by
  cases found : world.bridge? id with
  | some bridge => exact heeds_of_settles (settles_bind tidy ⟨bridge, found⟩)
  | none =>
      have refused : world.bindSignal id route handle link =
          world.after (link.toList.map .drop) (.refused .noBridge) := by
        simp [bindSignal, found]
      rw [refused]
      exact heeds_of_upkeep (.refl world) (by simp) (by simp)

theorem heeds_handle (tidy : world.Tidy) {task : Task} (native : task.Native) :
    Outcome.Heeds world task (world.handle task) := by
  cases task with
  | release value => exact heeds_release value
  | remove id => exact heeds_remove id
  | bind id route handle link => exact heeds_bind tidy id route handle link
  | _ => exact heeds_of_settles (settles_handle tidy native trivial)

end Tasks

end World

namespace Machine

structure Attended (machine : Machine) : Prop where
  calm : machine.Calm
  awaited : ∀ id, machine.world.Spent id → machine.world.Awaited machine.agenda id
  prompt : machine.world.engine.mode = .immediate → machine.world.engine.backlog.items = []

/-- The machines that a client of Signals comes by between two of its requests, in bounds at every
step. -/
inductive Visited : Machine → Prop
  | start (setting : Setting) : Visited (start setting)
  | serve {machine ended : Machine} {label : String} {command : Command} {keep : Option String}
      (visited : Visited machine) (permitted : command.Permitted)
      (completes : machine.CompletesInBounds (.act label command keep) ended) : Visited ended

section Requests

variable {machine ended : Machine} {label : String} {command : Command} {keep : Option String}

theorem Attended.step (attended : machine.Attended) : machine.step.Attended := by
  cases shape : machine.agenda with
  | nil =>
      rw [step_of_nil shape]
      exact attended
  | cons task rest =>
      have native := attended.calm.native task (by simp [shape])
      have proceeds := World.proceeds_handle attended.calm.tidy native
      have heeds := World.heeds_handle attended.calm.tidy native
      obtain ⟨agenda, world, -, -⟩ := step_native shape native
      have upkeep := (upkeep_of_register world).1
      refine ⟨attended.calm.step, ?_, ?_⟩
      · intro id spent
        rw [agenda]
        have awaited := heeds.awaited id rest (upkeep.spent id spent)
          (by rw [← shape]; exact attended.awaited id)
        rw [World.Awaited, upkeep.backlog]
        exact awaited
      · intro immediate
        rw [upkeep.backlog]
        rw [upkeep.mode, proceeds.mode] at immediate
        exact heeds.prompt immediate (attended.prompt immediate)

theorem Attended.run (attended : machine.Attended) (fuel : Nat) : (machine.run fuel).Attended :=
  attended.calm.keeps Attended attended (fun _ _ attended => attended.step) fuel

theorem Calm.mode_step (calm : machine.Calm) :
    machine.step.world.engine.mode = machine.world.engine.mode := by
  cases shape : machine.agenda with
  | nil => rw [step_of_nil shape]
  | cons task rest =>
      have native := calm.native task (by simp [shape])
      obtain ⟨-, world, -, -⟩ := step_native shape native
      rw [(upkeep_of_register world).1.mode]
      exact (World.proceeds_handle calm.tidy native).mode

theorem Calm.mode_run (calm : machine.Calm) (fuel : Nat) :
    (machine.run fuel).world.engine.mode = machine.world.engine.mode :=
  calm.keeps (·.world.engine.mode = machine.world.engine.mode) rfl
    (fun _ calm same => calm.mode_step.trans same) fuel

theorem allowed_of_permitted (machine : Machine) (permitted : command.Permitted) :
    machine.isAllowed command = true := by
  cases command with
  | shutDown => exact permitted.elim
  | _ => rfl

/-- What is permitted loses no object that waits, and runs no script. -/
theorem upkeep_perform {world : World} (tidy : world.Tidy) (read : Operand → Value)
    (permitted : command.Permitted) :
    World.Upkeep world (world.perform read command).1 ∧
      ∀ task ∈ (world.perform read command).2, task.Native := by
  by_cases offered : command.Offered
  · have deal := @World.deal_perform False world read tidy False.elim command offered False.elim
    exact ⟨deal.upkeep, deal.native⟩
  · have slot : ∃ value classId key, command = .object (.setSlot value classId key) := by
      unfold Command.Offered at offered
      split at offered
      · exact ⟨_, _, _, rfl⟩
      · exact permitted.elim
      · exact permitted.elim
      · exact absurd trivial offered
    obtain ⟨value, classId, key, rfl⟩ := slot
    have same : world.perform read (.object (.setSlot value classId key)) =
        (world.setSlot (read value) classId key).done .nothing := by
      simp [World.perform, tidy.running, World.performRunning, World.performObject]
    rw [same]
    exact ⟨World.upkeep_set_slot world _ classId key, by simp [World.done, Task.Native]⟩

theorem Attended.begin (attended : machine.Attended) (idle : machine.agenda = [])
    (permitted : command.Permitted) :
    (machine.submit (.act label command keep)).step.Attended := by
  obtain ⟨world, agenda⟩ := @step_submit_of_allowed machine label command keep idle
    (allowed_of_permitted machine permitted)
  obtain ⟨upkeep, native⟩ := upkeep_perform attended.calm.tidy machine.read permitted
  refine ⟨⟨?_, ?_⟩, ?_, ?_⟩
  · rw [world]
    exact upkeep.tidy attended.calm.tidy
  · intro task member
    rw [agenda] at member
    rcases List.mem_append.1 member with early | last
    · exact native task early
    · cases List.mem_singleton.1 last
      trivial
  · intro id spent
    rw [world] at spent
    have awaited := attended.awaited id (upkeep.spent id spent)
    rw [idle] at awaited
    rw [world, agenda]
    have waits := @World.Upkeep.awaited _ _ upkeep
      ((machine.world.perform machine.read command).2 ++ [.finish label]) [] id awaited
    rw [List.append_nil] at waits
    exact waits
  · intro immediate
    rw [world] at immediate ⊢
    rw [upkeep.mode] at immediate
    exact upkeep.prompt (attended.prompt immediate)

theorem Attended.completes (attended : machine.Attended) (idle : machine.agenda = [])
    (permitted : command.Permitted) (label : String) (keep : Option String) :
    ∃ ended, machine.Completes (.act label command keep) ended := by
  obtain ⟨ended, completes, -⟩ :=
    Calm.completes_of_begin
      (@Attended.begin machine label command keep attended idle permitted).calm
  exact ⟨ended, completes⟩

theorem Attended.served (attended : machine.Attended) (idle : machine.agenda = [])
    (permitted : command.Permitted)
    (completes : machine.Completes (.act label command keep) ended) :
    ended.agenda = [] ∧ ended.Attended := by
  obtain ⟨fuel, ran, done⟩ := run_of_completes completes
  rw [← ran] at done ⊢
  exact ⟨done, (attended.begin idle permitted).run fuel⟩

theorem Visited.attended (visited : machine.Visited) : machine.agenda = [] ∧ machine.Attended := by
  induction visited with
  | start setting =>
      refine ⟨rfl, calm_start setting, ?_, fun _ => rfl⟩
      rintro id ⟨object, found, -⟩
      simp [Machine.start, World.start, Engine.start, Heap.empty, Heap.get?] at found
  | serve _ permitted completes induction =>
      exact induction.2.served induction.1 permitted completes.completes

end Requests

end Machine

end ScriptSignal
