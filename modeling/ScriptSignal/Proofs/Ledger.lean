import Mathlib.Data.List.Count
import ScriptSignal.Proofs.Bounds
import ScriptSignal.Proofs.Settling

/-!
# The client's ledger

A client keeps a ledger of the references that it was given and has not given back. If its
requests are honest, the count of every live object is what the ledger and the world's own
accounts say, after every request. While a request is under way the difference is on the
agenda.
-/

namespace ScriptSignal

set_option autoImplicit false

def Step.Offered : Step → Prop
  | .act _ command _ => command.Offered
  | _ => False

namespace Machine

def carried (machine : Machine) : List Value := machine.agenda.flatMap Task.carried

def due (machine : Machine) : List Value :=
  machine.agenda.foldl Task.dueAfter machine.frame.reply.values

/-- A request under way in a world of Signals only, which may or may not give the client a
reference in the end. -/
structure Settling (machine : Machine) (owned : List Value) (owning : Bool) : Prop where
  calm : machine.Calm
  balance : ∀ id, machine.world.surplus id =
    owned.count (.object id) + machine.carried.count (.object id)
      + if owning then machine.due.count (.object id) else 0
  doomed : ∀ id, .remove id ∈ machine.agenda → machine.world.references id = 0
  bridged : ∀ id route handle link, .bind id route handle link ∈ machine.agenda →
    ∃ bridge, machine.world.bridge? id = some bridge
  awaited : ∀ id, machine.world.Spent id → machine.world.Awaited machine.agenda id
  prompt : machine.world.engine.mode = .immediate → machine.world.engine.backlog.items = []

section Step

variable {machine : Machine} {owned : List Value} {owning : Bool} {task : Task}
  {rest : List Task}

theorem Settling.covered (settling : machine.Settling owned owning) : machine.world.Covered := by
  intro id
  rw [settling.balance id]
  omega

theorem Settling.ready (settling : machine.Settling owned owning)
    (shape : machine.agenda = task :: rest) : machine.world.Ready task := by
  cases task with
  | release value =>
      rintro id rfl
      have carried : machine.carried = .object id :: rest.flatMap Task.carried := by
        simp [Machine.carried, shape, Task.carried]
      have balance := settling.balance id
      rw [carried, List.count_cons_self] at balance
      unfold World.surplus at balance
      omega
  | remove id => exact settling.doomed id (by simp [shape])
  | bind id route handle link => exact settling.bridged id route handle link (by simp [shape])
  | _ => trivial

theorem Settling.due_step (settling : machine.Settling owned owning)
    (shape : machine.agenda = task :: rest) (native : task.Native) :
    machine.step.due = machine.due := by
  obtain ⟨agenda, -, others, answers⟩ := step_native shape native
  have before : machine.due = rest.foldl Task.dueAfter
      (Task.dueAfter machine.frame.reply.values task) := by
    simp [due, shape]
  rw [before, due, agenda, List.foldl_append]
  by_cases asks : ∃ reply, task = .answer reply
  · obtain ⟨reply, rfl⟩ := asks
    rw [answers reply rfl]
    rfl
  · have plain : ∀ reply, task ≠ .answer reply := fun reply same => asks ⟨reply, same⟩
    rw [others plain, World.due_handle settling.calm.tidy native (settling.ready shape) plain]

theorem Settling.step (settling : machine.Settling owned owning) :
    machine.step.Settling owned owning := by
  cases shape : machine.agenda with
  | nil =>
      rw [step_of_nil shape]
      exact settling
  | cons task rest =>
      have native := settling.calm.native task (by simp [shape])
      have proceeds := World.proceeds_handle settling.calm.tidy native
      have settles := World.settles_handle settling.calm.tidy native (settling.ready shape)
      obtain ⟨agenda, world, -, -⟩ := step_native shape native
      obtain ⟨upkeep, surplus, references⟩ := upkeep_of_register world
      have due := settling.due_step shape native
      refine ⟨settling.calm.step, ?_, ?_, ?_, ?_, ?_⟩
      · intro id
        have before := settling.balance id
        have moved := settles.balance id
        have split : machine.carried = task.carried ++ rest.flatMap Task.carried := by
          simp [carried, shape]
        have now : machine.step.carried =
            (machine.world.handle task).2.flatMap Task.carried ++ rest.flatMap Task.carried := by
          simp [carried, agenda]
        rw [split, List.count_append] at before
        rw [surplus id, due, now, List.count_append]
        omega
      · intro id member
        rw [agenda] at member
        rw [references id]
        rcases List.mem_append.1 member with new | old
        · exact settles.doomed id new
        · have none := settling.doomed id (by simp [shape, old])
          have fewer := settles.fewer id
          omega
      · intro id route handle link member
        rw [agenda] at member
        rcases List.mem_append.1 member with new | old
        · exact absurd new (proceeds.unbinding id route handle link)
        · obtain ⟨bridge, found⟩ := settling.bridged id route handle link (by simp [shape, old])
          obtain ⟨between, reached, -⟩ := proceeds.bridges id bridge found
          obtain ⟨later, kept, -⟩ := upkeep.bridges id between reached
          exact ⟨later, kept⟩
      · intro id spent
        rw [agenda]
        have awaited := settles.awaited id rest (upkeep.spent id spent)
          (by rw [← shape]; exact settling.awaited id)
        rw [World.Awaited, upkeep.backlog]
        exact awaited
      · intro immediate
        rw [upkeep.backlog]
        rw [upkeep.mode, proceeds.mode] at immediate
        exact settles.prompt immediate (settling.prompt immediate)

theorem Settling.run (settling : machine.Settling owned owning) (fuel : Nat) :
    (machine.run fuel).Settling owned owning :=
  settling.calm.keeps (·.Settling owned owning) settling (fun _ _ settling => settling.step) fuel

end Step

/-- A request of a client that names live objects only, and gives away what it owns. -/
structure Honest (machine : Machine) (owned : List Value) (command : Command) : Prop where
  offered : command.Offered
  live : ∀ operand ∈ command.operands, ∀ id, machine.read operand = .object id →
    machine.world.isAlive (.object id) = true
  made : ∀ id, .object id ∈ command.made → machine.world.isAlive (.object id) = true
  owns : ∀ id, (command.given machine.read).count (.object id) ≤ owned.count (.object id)

/-- The runs of an honest client, in bounds at every step, each machine with the client's ledger:
the references that were returned to it, without those that it freed or gave away. -/
inductive Ledgered : Machine → List Value → Prop
  | start (setting : Setting) : Ledgered (start setting) []
  | serve {machine ended : Machine} {owned : List Value} {label : String} {command : Command}
      {keep : Option String} (ledgered : Ledgered machine owned)
      (honest : machine.Honest owned command)
      (completes : machine.CompletesInBounds (.act label command keep) ended) :
      Ledgered ended (owned.diff (command.given machine.read)
        ++ if command.owning then ended.frame.reply.values else [])

section Requests

variable {machine : Machine} {owned : List Value} {label : String} {command : Command}
  {keep : Option String}

/-- An honest request leaves on the agenda what it does to the accounts. -/
theorem Settling.begin (settling : machine.Settling owned false) (idle : machine.agenda = [])
    (honest : machine.Honest owned command) :
    (machine.submit (.act label command keep)).step.Settling
      (owned.diff (command.given machine.read)) command.owning := by
  obtain ⟨world, agenda⟩ := @step_submit machine label command keep idle honest.offered
  have deal :=
      World.deal_perform settling.calm.tidy (fun _ : True => settling.covered) honest.offered
    fun _ => honest.live
  have finished : ∀ task, task ∈ (machine.submit (.act label command keep)).step.agenda →
      task ∈ (machine.world.perform machine.read command).2 ∨ task = .finish label := by
    intro task member
    rw [agenda] at member
    simpa using member
  refine ⟨settling.calm.begin idle honest.offered, ?_, ?_, ?_, ?_, ?_⟩
  · intro id
    have moved := deal.balance trivial id
    have before := settling.balance id
    have owns := honest.owns id
    have nothing : machine.carried = [] := by simp [carried, idle]
    have carried : (machine.submit (.act label command keep)).step.carried =
        (machine.world.perform machine.read command).2.flatMap Task.carried := by
      simp [Machine.carried, agenda, Task.carried]
    have due : (machine.submit (.act label command keep)).step.due =
        (machine.world.perform machine.read command).2.foldl Task.dueAfter [] := by
      rw [Machine.due, agenda, List.foldl_append, deal.answered]
      rfl
    rw [nothing] at before
    rw [world, carried, due, List.count_diff]
    simp only [List.count_nil, Bool.false_eq_true, if_false] at before
    omega
  · intro id member
    rcases finished _ member with early | last
    · exact absurd early (deal.kept id)
    · cases last
  · intro id route handle link member
    rw [world]
    rcases finished _ member with early | last
    · exact deal.bridged id route handle link early
    · cases last
  · intro id spent
    rw [world] at spent
    have awaited := settling.awaited id (deal.upkeep.spent id spent)
    rw [idle] at awaited
    rw [world, agenda]
    have waits := @World.Upkeep.awaited _ _ deal.upkeep
      ((machine.world.perform machine.read command).2 ++ [.finish label]) [] id awaited
    rw [List.append_nil] at waits
    exact waits
  · intro immediate
    rw [world] at immediate ⊢
    rw [deal.upkeep.mode] at immediate
    exact deal.upkeep.prompt (settling.prompt immediate)

theorem Ledgered.settled (ledgered : Ledgered machine owned) :
    machine.agenda = [] ∧ machine.Settling owned false := by
  induction ledgered with
  | start setting =>
      refine ⟨rfl, calm_start setting, ?_, ?_, ?_, ?_, ?_⟩
      · intro id
        rfl
      · simp [Machine.start]
      · simp [Machine.start]
      · rintro id ⟨object, found, -⟩
        simp [Machine.start, World.start, Engine.start, Heap.empty, Heap.get?] at found
      · exact fun _ => rfl
  | @serve machine ended owned label command keep _ honest completes induction =>
      obtain ⟨fuel, ran, idle⟩ := run_of_completes completes.completes
      have begun := @Settling.begin machine owned label command keep induction.2 induction.1 honest
      have settling := begun.run fuel
      rw [ran] at settling
      refine ⟨idle, settling.calm, ?_, settling.doomed, settling.bridged, settling.awaited,
        settling.prompt⟩
      intro id
      have balance := settling.balance id
      have due : ended.due = ended.frame.reply.values := by simp [Machine.due, idle]
      rw [due] at balance
      rw [balance, List.count_append]
      cases owning : command.owning with
      | true =>
          simp only [if_true, Bool.false_eq_true, if_false]
          omega
      | false => simp

end Requests

/-- After every request of an honest client, the count of a live object is what the client's
ledger says and what is held by the live objects, by the defined classes, by the states in the
tables of bridges, and by the strong references of the client. -/
theorem count_of_ledgered {machine : Machine} {owned : List Value}
    (ledgered : Ledgered machine owned) {id : ObjectId} {object : Object}
    (found : machine.world.engine.heap.get? id = some object) :
    object.refCount = owned.count (.object id)
      + machine.world.objectReferences.count (.object id)
      + machine.world.classReferences.count (.object id)
      + machine.world.tableReferences.count (.object id)
      + machine.world.clientReferences.count (.object id) := by
  obtain ⟨idle, settling⟩ := ledgered.settled
  have balance := settling.balance id
  have nothing : machine.carried = [] := by simp [carried, idle]
  rw [nothing, World.surplus, World.references_of_get id found, World.tally] at balance
  simp only [List.count_nil, Bool.false_eq_true, if_false] at balance
  omega

/-- A request that names nothing and gives nothing away is honest. -/
theorem honest_of_no_operands {machine : Machine} {owned : List Value} {command : Command}
    (offered : command.Offered) (operands : command.operands = []) (made : command.made = [])
    (given : command.given machine.read = []) : machine.Honest owned command where
  offered := offered
  live := by simp [operands]
  made := by simp [made]
  owns := by simp [given]

def checkNamed (machine : Machine) (accepts : Value → Bool) (command : Command) : Bool :=
  (command.operands.map machine.read ++ command.made).all fun value =>
    !value.isObject || accepts value

def checkGiven (machine : Machine) (owned : List Value) (command : Command) : Bool :=
  (command.given machine.read).all fun value =>
    (command.given machine.read).count value ≤ owned.count value

/-- The ledger after a client's steps, if all of them are honest requests that end with the fuel
and stay in bounds. -/
def ledgerAfter? (fuel : Nat) : Machine → List Value → List Step → Option (List Value)
  | _, owned, [] => some owned
  | machine, owned, .act label command keep :: steps =>
      let submitted := machine.submit (.act label command keep)
      let ended := submitted.run fuel
      if machine.checkNamed machine.world.isAlive command && machine.checkGiven owned command &&
          checkBounds fuel submitted then
        ledgerAfter? fuel ended (owned.diff (command.given machine.read)
          ++ if command.owning then ended.frame.reply.values else []) steps
      else none
  | _, _, _ :: _ => none

section Checks

variable {machine : Machine} {owned ledger : List Value}

theorem named_of_check {accepts : Value → Bool} {command : Command}
    (checked : machine.checkNamed accepts command = true) :
    (∀ operand ∈ command.operands, ∀ id, machine.read operand = .object id →
        accepts (.object id) = true) ∧
      ∀ id, .object id ∈ command.made → accepts (.object id) = true := by
  have accepted : ∀ id, .object id ∈ command.operands.map machine.read ++ command.made →
      accepts (.object id) = true := by
    intro id member
    simpa [Value.isObject] using List.all_eq_true.1 checked _ member
  refine ⟨?_, fun id made => accepted id (List.mem_append_right _ made)⟩
  intro operand member id same
  exact accepted id (List.mem_append_left _ (List.mem_map.2 ⟨operand, member, same⟩))

theorem given_of_check {command : Command} (checked : machine.checkGiven owned command = true)
    (id : ObjectId) :
    (command.given machine.read).count (.object id) ≤ owned.count (.object id) := by
  by_cases given : .object id ∈ command.given machine.read
  · simpa using List.all_eq_true.1 checked _ given
  · rw [List.count_eq_zero.2 given]
    exact Nat.zero_le _

theorem Ledgered.run_all {fuel : Nat} {steps : List Step} (ledgered : Ledgered machine owned)
    (offered : ∀ step ∈ steps, step.Offered)
    (checked : ledgerAfter? fuel machine owned steps = some ledger) :
    Ledgered (runAll fuel machine steps) ledger := by
  induction steps generalizing machine owned with
  | nil =>
      cases checked
      exact ledgered
  | cons step steps induction =>
      cases step with
      | act label command keep =>
          simp only [ledgerAfter?] at checked
          split at checked
          · rename_i passes
            simp only [Bool.and_eq_true] at passes
            obtain ⟨⟨named, given⟩, bounds⟩ := passes
            obtain ⟨live, made⟩ := named_of_check named
            have honest : machine.Honest owned command :=
              ⟨offered _ List.mem_cons_self, live, made, given_of_check given⟩
            have next := ledgered.serve honest (completes_of_check bounds)
            exact induction next (fun step member => offered step (List.mem_cons_of_mem _ member))
              checked
          · cases checked
      | _ => cases checked

end Checks

/-- A Signal is constructed that is linked to an object of the client. -/
def linkedSignal : Machine :=
  runAll 20 (start .immediate)
    [.act "install" (.bridge (.install "signals" {})) none,
      .act "create" (.object .create) (some "owner"),
      .act "construct"
        (.bridge (.enter "signals" .construct (.literal .undefined) [.register "owner"]))
        (some "signal")]

theorem ledgered_linked_signal : Ledgered linkedSignal [.object ⟨1⟩, .object ⟨2⟩] :=
  (Ledgered.start .immediate).run_all (by simp [Step.Offered, Command.Offered]) rfl

theorem count_of_linked_signal :
    linkedSignal.world.references ⟨1⟩ = 2 ∧
      linkedSignal.world.references ⟨1⟩ =
        [Value.object ⟨1⟩, .object ⟨2⟩].count (.object ⟨1⟩)
          + linkedSignal.world.objectReferences.count (.object ⟨1⟩)
          + linkedSignal.world.classReferences.count (.object ⟨1⟩)
          + linkedSignal.world.tableReferences.count (.object ⟨1⟩)
          + linkedSignal.world.clientReferences.count (.object ⟨1⟩) :=
  ⟨rfl, count_of_ledgered ledgered_linked_signal rfl⟩

end Machine

end ScriptSignal
