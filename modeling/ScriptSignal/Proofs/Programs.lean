import ScriptSignal.Proofs.Lives
import ScriptSignal.Proofs.Waiting

/-!
# Programs of a client

A program is a list of instructions, carried out one after the other. In a world of Signals every
program comes to its end, and to one end only. Tables only grow meanwhile, so where there is
room for the states in the end there was room all along.
-/

namespace ScriptSignal

set_option autoImplicit false

structure Instruction where
  label : String
  command : Command
  keep : Option String

def Instruction.step (instruction : Instruction) : Step :=
  .act instruction.label instruction.command instruction.keep

namespace World

theorem roomy_of_grown {before after : World}
    (grown : ∀ id bridge, before.bridge? id = some bridge →
      ∃ later, after.bridge? id = some later ∧ bridge.states.capacity ≤ later.states.capacity)
    (room : after.Roomy) : before.Roomy := by
  intro id bridge found
  obtain ⟨later, reached, more⟩ := grown id bridge found
  exact Nat.le_trans more (room id later reached)

end World

namespace Machine

section Runs

variable {machine ended other : Machine} {instruction : Instruction}

theorem run_of_idle (idle : machine.agenda = []) (fuel : Nat) : machine.run fuel = machine := by
  cases fuel with
  | zero => rfl
  | succ fuel => simp [run, idle]

theorem run_add (machine : Machine) (first more : Nat) :
    machine.run (first + more) = (machine.run first).run more := by
  induction first generalizing machine with
  | zero => simp [run]
  | succ first induction =>
      rw [Nat.succ_add]
      cases busy : machine.agenda.isEmpty with
      | true =>
          have idle : machine.agenda = [] := List.isEmpty_iff.1 busy
          rw [run_of_idle idle, run_of_idle idle, run_of_idle idle]
      | false =>
          simp only [run, busy, Bool.false_eq_true, if_false]
          exact induction machine.step

theorem Completes.unique {step : Step} (completes : machine.Completes step ended)
    (also : machine.Completes step other) : other = ended := by
  obtain ⟨fuel, ran, idle⟩ := completes
  obtain ⟨more, ranOther, idleOther⟩ := also
  have one := run_add (machine.submit step) fuel more
  have two := run_add (machine.submit step) more fuel
  rw [ran, run_of_idle idle] at one
  rw [ranOther, run_of_idle idleOther, Nat.add_comm] at two
  exact two.symm.trans one

theorem Calm.roomy_of_step (calm : machine.Calm) (room : machine.step.world.Roomy) :
    machine.world.Roomy := by
  cases shape : machine.agenda with
  | nil => rwa [step_of_nil shape] at room
  | cons task rest =>
      have native := calm.native task (by simp [shape])
      have proceeds := World.proceeds_handle calm.tidy native
      obtain ⟨-, world, -, -⟩ := step_native shape native
      have handled := World.roomy_of_grown (upkeep_of_register world).1.bridges room
      exact World.roomy_of_grown proceeds.bridges handled

theorem Calm.roomy_of_run (calm : machine.Calm) (fuel : Nat)
    (room : (machine.run fuel).world.Roomy) : machine.world.Roomy := by
  induction fuel generalizing machine with
  | zero => exact room
  | succ fuel induction =>
      unfold Machine.run at room
      split at room
      · exact room
      · exact calm.roomy_of_step (induction calm.step room)

theorem Calm.upkeep_begin (calm : machine.Calm) (idle : machine.agenda = [])
    (offered : instruction.command.Offered) :
    World.Upkeep machine.world (machine.submit instruction.step).step.world := by
  obtain ⟨world, -⟩ :=
    @step_submit machine instruction.label instruction.command instruction.keep idle offered
  have same : (machine.submit instruction.step).step.world =
      (machine.world.perform machine.read instruction.command).1 := world
  rw [same]
  exact (upkeep_perform calm.tidy machine.read (permitted_of_offered offered)).1

theorem Calm.roomy_of_completes (calm : machine.Calm) (idle : machine.agenda = [])
    (offered : instruction.command.Offered) (completes : machine.Completes instruction.step ended)
    (room : ended.world.Roomy) : machine.world.Roomy := by
  have begun : (machine.submit instruction.step).step.Calm := calm.begin idle offered
  obtain ⟨fuel, ran, -⟩ := run_of_completes completes
  rw [← ran] at room
  exact World.roomy_of_grown (calm.upkeep_begin idle offered).bridges
    (begun.roomy_of_run fuel room)

theorem Calm.completed (calm : machine.Calm) (idle : machine.agenda = [])
    (offered : instruction.command.Offered)
    (completes : machine.Completes instruction.step ended) :
    ended.agenda = [] ∧ ended.Calm ∧ ended.world.engine.mode = machine.world.engine.mode := by
  have begun : (machine.submit instruction.step).step.Calm := calm.begin idle offered
  obtain ⟨fuel, ran, done⟩ := run_of_completes completes
  rw [← ran] at done ⊢
  refine ⟨done, begun.run fuel, ?_⟩
  rw [begun.mode_run, (calm.upkeep_begin idle offered).mode]

end Runs

/-- The instructions of a program are carried out one after the other, with these answers. -/
inductive Executes : Machine → List Instruction → List Reply → Machine → Prop
  | done (machine : Machine) : Executes machine [] [] machine
  | serve {machine middle ended : Machine} {instruction : Instruction} {program : List Instruction}
      {replies : List Reply} (completes : machine.Completes instruction.step middle)
      (rest : Executes middle program replies ended) :
      Executes machine (instruction :: program) (middle.frame.reply :: replies) ended

inductive ExecutesInBounds : Machine → List Instruction → List Reply → Machine → Prop
  | done (machine : Machine) : ExecutesInBounds machine [] [] machine
  | serve {machine middle ended : Machine} {instruction : Instruction} {program : List Instruction}
      {replies : List Reply} (completes : machine.CompletesInBounds instruction.step middle)
      (rest : ExecutesInBounds middle program replies ended) :
      ExecutesInBounds machine (instruction :: program) (middle.frame.reply :: replies) ended

section Programs

variable {machine ended : Machine} {program : List Instruction} {replies : List Reply}

theorem Calm.executes (calm : machine.Calm) (idle : machine.agenda = [])
    (offered : ∀ instruction ∈ program, instruction.command.Offered) :
    ∃ replies ended, machine.Executes program replies ended ∧ ended.agenda = [] ∧ ended.Calm := by
  induction program generalizing machine with
  | nil => exact ⟨[], machine, .done machine, idle, calm⟩
  | cons instruction program induction =>
      have first := offered instruction List.mem_cons_self
      obtain ⟨middle, completes, -⟩ := calm.completes idle first instruction.label instruction.keep
      have served : machine.Completes instruction.step middle := completes
      obtain ⟨waits, later, -⟩ := calm.completed idle first served
      obtain ⟨replies, ended, rest, finished, last⟩ := induction later waits
        fun other member => offered other (List.mem_cons_of_mem instruction member)
      exact ⟨_, ended, .serve served rest, finished, last⟩

theorem ExecutesInBounds.executes (executes : machine.ExecutesInBounds program replies ended) :
    machine.Executes program replies ended := by
  induction executes with
  | done machine => exact .done machine
  | serve completes _ induction => exact .serve completes.completes induction

theorem executes_of_check {fuel : Nat}
    (checked : checkBoundsAll fuel machine (program.map Instruction.step) = true) :
    ∃ replies, machine.ExecutesInBounds program replies
      (runAll fuel machine (program.map Instruction.step)) := by
  induction program generalizing machine with
  | nil => exact ⟨[], .done machine⟩
  | cons instruction program induction =>
      obtain ⟨first, others⟩ := Bool.and_eq_true_iff.1 checked
      obtain ⟨replies, rest⟩ := induction others
      exact ⟨_, .serve (completes_of_check first) rest⟩

theorem Calm.executed (calm : machine.Calm) (idle : machine.agenda = [])
    (offered : ∀ instruction ∈ program, instruction.command.Offered)
    (executes : machine.Executes program replies ended) : ended.agenda = [] ∧ ended.Calm := by
  induction executes with
  | done machine => exact ⟨idle, calm⟩
  | @serve machine middle ended instruction program replies completes rest induction =>
      have first := offered instruction List.mem_cons_self
      obtain ⟨waits, later, -⟩ := calm.completed idle first completes
      exact induction later waits fun other member =>
        offered other (List.mem_cons_of_mem instruction member)

theorem Calm.roomy_of_executes (calm : machine.Calm) (idle : machine.agenda = [])
    (offered : ∀ instruction ∈ program, instruction.command.Offered)
    (executes : machine.Executes program replies ended) (room : ended.world.Roomy) :
    machine.world.Roomy := by
  induction executes with
  | done machine => exact room
  | @serve machine middle ended instruction program replies completes rest induction =>
      have first := offered instruction List.mem_cons_self
      obtain ⟨waits, later, -⟩ := calm.completed idle first completes
      have between := induction later waits
        (fun other member => offered other (List.mem_cons_of_mem instruction member)) room
      exact calm.roomy_of_completes idle first completes between

end Programs

end Machine

end ScriptSignal
