import ScriptSignal.Proofs.Cascades
import ScriptSignal.Proofs.Lives

/-!
# What a release and a collection remove

Where objects are reclaimed at once, a release removes what is garbage once the reference is
given back. Where they wait, a collection removes what is garbage by then. Either comes to an
end, whatever the objects and the Signals refer to, and the order in which references are
given back makes no difference.
-/

namespace ScriptSignal

set_option autoImplicit false

namespace Machine

inductive Reporting (finalizedBefore : Nat) (machine : Machine) : Prop
  | waiting {early : List Task} {label : String}
      (agenda : machine.agenda = early ++ [.reportCollection finalizedBefore, .finish label]) :
      Reporting finalizedBefore machine
  | answering {label : String}
      (agenda : machine.agenda = [.answer (.number
        (some ((machine.world.engine.finalized - finalizedBefore : Nat) : Int))), .finish label]) :
      Reporting finalizedBefore machine
  | done (final : ∀ task ∈ machine.agenda, ∃ label, task = .finish label)
      (reply : machine.frame.reply =
        .number (some ((machine.world.engine.finalized - finalizedBefore : Nat) : Int))) :
      Reporting finalizedBefore machine

section Requests

variable {machine ended : Machine} {label : String} {keep : Option String} {operand : Operand}
  {finalizedBefore : Nat}

theorem total_of_register {after world : World}
    (same : after = world ∨ ∃ register kept, after = world.setRegister register kept) :
    after.engine.finalized = world.engine.finalized := by
  rcases same with rfl | ⟨register, kept, rfl⟩
  · rfl
  · rfl

theorem Reporting.step (reporting : machine.Reporting finalizedBefore) (calm : machine.Calm) :
    machine.step.Reporting finalizedBefore := by
  cases reporting with
  | @waiting early label agenda =>
      cases early with
      | nil =>
          obtain ⟨next, world, -, -⟩ := step_native agenda trivial
          have total : machine.step.world.engine.finalized = machine.world.engine.finalized := by
            rw [total_of_register world]
            simp only [World.handle, World.reportCollection, World.done]
            split <;> rfl
          apply Reporting.answering
          rw [next, total]
          rfl
      | cons task more =>
          obtain ⟨next, -⟩ := step_native agenda (calm.native task (by simp [agenda]))
          exact @Reporting.waiting finalizedBefore machine.step
            ((machine.world.handle task).2 ++ more) label (by rw [next, List.append_assoc]; rfl)
  | @answering label agenda =>
      obtain ⟨next, world, -, answers⟩ := step_native agenda trivial
      apply Reporting.done
      · intro task member
        rw [next] at member
        exact ⟨label, List.mem_singleton.1 member⟩
      · rw [answers _ rfl, total_of_register world]
        rfl
  | done final reply =>
      cases shape : machine.agenda with
      | nil =>
          rw [step_of_nil shape]
          exact .done final reply
      | cons task rest =>
          obtain ⟨label, rfl⟩ := final task (by simp [shape])
          obtain ⟨next, world, kept, -⟩ := step_native shape trivial
          apply Reporting.done
          · intro task member
            rw [next] at member
            have listed : task ∈ rest := member
            exact final task (by simp [shape, listed])
          · rw [kept (by simp), total_of_register world]
            exact reply

theorem Reporting.run (reporting : machine.Reporting finalizedBefore) (calm : machine.Calm)
    (fuel : Nat) : (machine.run fuel).Reporting finalizedBefore :=
  calm.keeps (·.Reporting finalizedBefore) reporting
    (fun _ calm reporting => reporting.step calm) fuel

theorem begin_release (tidy : machine.world.Tidy) (idle : machine.agenda = []) :
    (machine.submit (.act label (.object (.release operand)) keep)).step.world = machine.world ∧
      (machine.submit (.act label (.object (.release operand)) keep)).step.agenda =
        [.release (machine.read operand), .answer .nothing, .finish label] := by
  obtain ⟨world, agenda⟩ :=
    @step_submit machine label (.object (.release operand)) keep idle trivial
  have performed : machine.world.perform machine.read (.object (.release operand)) =
      machine.world.after [.release (machine.read operand)] .nothing := by
    simp [World.perform, tidy.running, World.performRunning, World.performObject]
  rw [performed] at world agenda
  exact ⟨world, agenda⟩

theorem begin_collect (tidy : machine.world.Tidy) (idle : machine.agenda = []) :
    (machine.submit (.act label (.object .collect) keep)).step.world = machine.world ∧
      ∃ early, (∀ task ∈ early, task = .drain 0) ∧
        (machine.submit (.act label (.object .collect) keep)).step.agenda =
          early ++ [.reportCollection machine.world.engine.finalized, .finish label] := by
  obtain ⟨world, agenda⟩ := @step_submit machine label (.object .collect) keep idle trivial
  have performed : machine.world.perform machine.read (.object .collect) =
      machine.world.collect := by
    simp [World.perform, tidy.running, World.performRunning, World.performObject]
  rw [performed] at world agenda
  rw [world, agenda]
  unfold World.collect
  split
  · exact ⟨rfl, [.drain 0], by simp, rfl⟩
  · exact ⟨rfl, [], by simp, rfl⟩

/-- Where objects are reclaimed at once, a release takes what is garbage without the
reference. -/
theorem Attended.swept_release (attended : machine.Attended) (idle : machine.agenda = [])
    (paired : machine.world.Paired) (immediate : machine.world.engine.mode = .immediate)
    (completes : machine.Completes (.act label (.object (.release operand)) keep) ended) :
    ∃ dead, machine.world.Swept [machine.read operand] dead ended.world := by
  have tidy := attended.calm.tidy
  obtain ⟨fuel, ran, done⟩ := run_of_completes completes
  have begun : (machine.submit (.act label (.object (.release operand)) keep)).step.Attended :=
    attended.begin idle trivial
  obtain ⟨world, agenda⟩ := @begin_release machine label keep operand tidy idle
  have later := begun.run fuel
  rw [ran] at later
  have mode : ended.world.engine.mode = .immediate := by
    rw [← ran, begun.calm.mode_run, world]
    exact immediate
  have swept := swept_of_run begun (by rw [world]; exact paired) (by simp [agenda, Task.Binds])
    (by simp [agenda]) ran done (later.prompt mode)
  rw [world] at swept
  have carried : (machine.submit (.act label (.object (.release operand)) keep)).step.carried =
      [machine.read operand] := by
    simp [Machine.carried, agenda, Task.carried]
  rw [carried] at swept
  exact swept

/-- A collection takes what is garbage, and answers how much that was. -/
theorem Attended.swept_collect (attended : machine.Attended) (idle : machine.agenda = [])
    (paired : machine.world.Paired)
    (completes : machine.Completes (.act label (.object .collect) keep) ended) :
    ∃ dead, machine.world.Swept [] dead ended.world ∧
      ended.frame.reply = .number (some (dead.card : Int)) := by
  have tidy := attended.calm.tidy
  obtain ⟨fuel, ran, done⟩ := run_of_completes completes
  have begun : (machine.submit (.act label (.object .collect) keep)).step.Attended :=
    attended.begin idle trivial
  obtain ⟨world, early, drains, agenda⟩ := @begin_collect machine label keep tidy idle
  have empty : ended.world.engine.backlog.items = [] := by
    have draining := (@draining_begin machine label keep attended.calm idle).run begun.calm fuel
    rw [ran] at draining
    cases draining with
    | waiting agenda quiet => simp [done] at agenda
    | done empty quiet => exact empty
  have quiet : ∀ task ∈ (machine.submit (.act label (.object .collect) keep)).step.agenda,
      ¬task.Binds ∧ (∀ id, task ≠ .remove id) ∧ task.carried = [] := by
    intro task member
    rw [agenda] at member
    rcases List.mem_append.1 member with first | last
    · simp [drains task first, Task.Binds, Task.carried]
    · simp only [List.mem_cons, List.not_mem_nil, or_false] at last
      rcases last with rfl | rfl
      · simp [Task.Binds, Task.carried]
      · simp [Task.Binds, Task.carried]
  obtain ⟨dead, swept⟩ := swept_of_run begun (by rw [world]; exact paired)
    (fun task member => (quiet task member).1)
    (fun id member => (quiet _ member).2.1 id rfl) ran done empty
  have carried : (machine.submit (.act label (.object .collect) keep)).step.carried = [] :=
    List.flatMap_eq_nil_iff.2 fun task member => (quiet task member).2.2
  rw [world, carried] at swept
  refine ⟨dead, swept, ?_⟩
  have reporting := (Reporting.waiting agenda).run begun.calm fuel
  rw [ran] at reporting
  cases reporting with
  | waiting agenda => simp [done] at agenda
  | answering agenda => simp [done] at agenda
  | done _ reply =>
      rw [reply, swept.total, Nat.add_sub_cancel_left]

end Requests

/-- Whatever a client of Signals did before, as long as handles and states are bound to each
other one to one, giving a reference back comes to an end where objects are reclaimed at once,
and so does a collection where they wait. What is removed is the least set of live objects
that has every object whose count is made up of references from within the set and of the one
that was given back. The collection answers how many objects that was. -/
theorem least_cascade_of_visited {machine : Machine} (visited : machine.Visited)
    (paired : machine.world.Paired) (label : String) (keep : Option String) :
    (machine.world.engine.mode = .immediate → ∀ operand,
      (∃ ended, machine.Completes (.act label (.object (.release operand)) keep) ended) ∧
        ∀ ended, machine.Completes (.act label (.object (.release operand)) keep) ended →
          ∃ dead, machine.world.Swept [machine.read operand] dead ended.world) ∧
    (machine.world.engine.mode = .deferred →
      (∃ ended, machine.Completes (.act label (.object .collect) keep) ended) ∧
        ∀ ended, machine.Completes (.act label (.object .collect) keep) ended →
          ∃ dead, machine.world.Swept [] dead ended.world ∧
            ended.frame.reply = .number (some (dead.card : Int))) := by
  obtain ⟨idle, attended⟩ := visited.attended
  constructor
  · intro immediate operand
    have permitted : (Command.object (.release operand)).Permitted := trivial
    exact ⟨attended.completes idle permitted label keep,
      fun ended => attended.swept_release idle paired immediate⟩
  · intro _
    have permitted : (Command.object .collect).Permitted := trivial
    exact ⟨attended.completes idle permitted label keep,
      fun ended => attended.swept_collect idle paired⟩

theorem Ledgered.visited {machine : Machine} {owned : List Value}
    (ledgered : Ledgered machine owned) : machine.Visited := by
  induction ledgered with
  | start setting => exact .start setting
  | serve ledgered honest completes induction =>
      exact induction.serve (permitted_of_offered honest.offered) completes

/-- For an honest client, handles and states are bound one to one. -/
theorem Ledgered.paired {machine : Machine} {owned : List Value}
    (ledgered : Ledgered machine owned) (room : machine.world.Roomy) : machine.world.Paired where
  agree := fun id bridge found => ledgered.agree found (room id bridge found)
  apart := by
    intro id other bridge otherBridge found foundOther same
    have tidy := ledgered.settled.2.calm.tidy
    exact (World.serves_of_tidy tidy found (room id bridge found)).alone other otherBridge
      foundOther same

theorem least_cascade_of_linked_signal : ∃ ended dead,
    linkedSignal.Completes (.act "release" (.object (.release (.register "signal"))) none) ended ∧
      linkedSignal.world.Swept [.object ⟨2⟩] dead ended.world := by
  have room : linkedSignal.world.Roomy := by
    intro id bridge found
    cases World.bridge_of_single rfl found
    cases found
    decide
  have cascade := least_cascade_of_visited ledgered_linked_signal.visited
    (ledgered_linked_signal.paired room) "release" none
  obtain ⟨⟨ended, completes⟩, swept⟩ := cascade.1 rfl (.register "signal")
  obtain ⟨dead, removed⟩ := swept ended completes
  exact ⟨ended, dead, completes, removed⟩

end Machine

end ScriptSignal
