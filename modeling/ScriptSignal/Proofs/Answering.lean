import ScriptSignal.Proofs.Refinement
import ScriptSignal.Proofs.Cascades

/-!
# A request from its immediate part to its end

Once a request has done its immediate part, it gives some references back and answers. In the
meantime the client's names stay as they are, and then the answer is kept. Where objects wait
for a collection, nothing comes of a reference that is given back but a lower count.
-/

namespace ScriptSignal

set_option autoImplicit false

def Client.keeping (client : Client) (keep : Option String) (values : List Value) : Client :=
  match keep, values with
  | some register, value :: _ =>
      { client with registers := client.registers.insert register value }
  | _, _ => client

def Task.Counts : Task → Prop
  | .reportCollection _ => True
  | .answer reply => ∃ total, reply = .number total
  | task => task.Silent

theorem Task.Silent.counts {task : Task} (silent : task.Silent) : task.Counts := by
  cases task with
  | reportCollection before => trivial
  | answer reply => exact silent.elim
  | _ => exact silent

def Task.Mild (task : Task) : Prop := task.Follows ∨ ∃ label, task = .finish label

theorem Task.Mild.native {task : Task} (mild : task.Mild) : task.Native := by
  rcases mild with follows | ⟨label, rfl⟩
  · exact follows.native
  · trivial

theorem Task.Mild.plain {task : Task} (mild : task.Mild) :
    (∀ id, task ≠ .reclaim id) ∧ (∀ id, task ≠ .remove id) ∧ ¬task.Binds := by
  rcases mild with follows | ⟨label, rfl⟩
  · refine ⟨?_, ?_, ?_⟩
    · rintro id rfl
      exact follows
    · rintro id rfl
      exact follows
    · intro binds
      cases task with
      | bind id route handle link => exact follows
      | _ => exact binds
  · exact ⟨by simp, by simp, fun binds => binds⟩

namespace World

section Tasks

variable {world : World}

theorem client_bind_handle (bridge : BridgeId) (handle : Value) (key : Option Key) :
    (world.bindHandle bridge handle key).client = world.client := by
  rcases bind_handle_cases world bridge handle key with same | ⟨held, -, same⟩
  · rw [same]
  · rw [same]
    rcases set_slot_cases world handle held.classId key with
      ⟨kept, -⟩ | ⟨place, object, slot, -, -, -, kept⟩
    · rw [kept]
    · rw [kept]
      rfl

theorem client_run_finalizer (tidy : world.Tidy) (id : ObjectId) :
    (world.runFinalizer id).1.client = world.client := by
  rcases run_finalizer_cases tidy id with same | ⟨bridge, same⟩
  · rw [same]
  · rw [same]
    rcases finalize_signal_cases world bridge (.object id) with
      ⟨same, -⟩ | ⟨key, state, -, -, same⟩ | ⟨key, -, -, same⟩
    · rw [same]
      rfl
    · rw [same]
      exact client_bind_handle bridge _ none
    · rw [same]
      exact client_bind_handle bridge _ none

theorem client_release (value : Value) : (world.release value).1.client = world.client := by
  cases value with
  | object id =>
      by_cases held : 0 < world.references id
      · obtain ⟨object, count, found, counted⟩ := object_of_references held
        rcases release_cases found counted with ⟨-, same⟩ | ⟨-, -, same⟩ | ⟨-, same⟩
        · rw [same]
          rfl
        · rw [same]
          rfl
        · rw [same]
          rfl
      · obtain ⟨event, same⟩ := release_of_unreferenced (Nat.eq_zero_of_not_pos held)
        rw [same]
        rfl
  | _ => rfl

theorem client_handle (tidy : world.Tidy) {task : Task} (silent : task.Silent) :
    (world.handle task).1.client = world.client := by
  cases task with
  | release value => exact client_release value
  | drop held =>
      simp only [handle, dropReference, tidy.running, if_true]
      rfl
  | reclaim id =>
      simp only [handle, reclaim]
      split
      · rfl
      · split
        · exact client_run_finalizer tidy id
        · rfl
  | remove id =>
      rcases remove_object_cases world id with ⟨-, same⟩ | ⟨object, -, same⟩
      · simp only [handle, same]
      · simp only [handle, same]
        rfl
  | drain count =>
      simp only [handle, drain]
      split
      · rfl
      · split <;> rfl
  | report event => rfl
  | endCall id =>
      have upkeep := upkeep_activity world id (· - 1)
      simp only [handle, endCall, settle_bridge_of_tidy (upkeep.tidy tidy)]
      rfl
  | settle id => simp only [handle, settle_bridge_of_tidy tidy]
  | finish label => rfl
  | _ => exact silent.elim

/-- The work of a collection leaves such work, and touches no name of the client. -/
theorem counts_handle (tidy : world.Tidy) {task : Task} (counts : task.Counts) :
    (∀ next ∈ (world.handle task).2, next.Counts) ∧
      (world.handle task).1.client = world.client := by
  by_cases silent : task.Silent
  · exact ⟨fun next member => (Machine.silent_handle tidy silent next member).counts,
      client_handle tidy silent⟩
  cases task with
  | reportCollection before =>
      simp only [handle, reportCollection, done]
      refine ⟨by simp [Task.Counts], ?_⟩
      split <;> rfl
  | answer reply => exact ⟨by simp [handle], rfl⟩
  | _ => exact absurd counts silent

end Tasks

end World

namespace Machine

section Steps

variable {machine : Machine} {task : Task} {rest : List Task}

theorem step_of_native (shape : machine.agenda = task :: rest) (native : task.Native)
    (plain : ∀ reply, task ≠ .answer reply) :
    machine.step.world = (machine.world.handle task).1 ∧
      machine.step.agenda = (machine.world.handle task).2 ++ rest ∧
      machine.step.frame = machine.frame := by
  rw [step_of_cons shape]
  cases task with
  | answer reply => exact absurd rfl (plain reply)
  | finish label =>
      simp only [carryOut, record]
      split
      · exact ⟨rfl, rfl, rfl⟩
      · exact ⟨rfl, rfl, rfl⟩
  | enter body receiver arguments purpose => exact native.elim
  | leave body purpose => exact native.elim
  | perform step => exact native.elim
  | iterate times steps => exact native.elim
  | _ => exact ⟨rfl, rfl, rfl⟩

theorem client_answer (machine : Machine) (reply : Reply) :
    (machine.answer reply).world.client =
      machine.world.client.keeping machine.frame.keep reply.values := by
  obtain
    ⟨world, agenda, ⟨receiver, arguments, keep, last⟩, callers, muted, records, reported, limit⟩ :=
    machine
  cases keep with
  | none => rfl
  | some register => cases reply <;> rfl

theorem step_of_answer {reply : Reply} (shape : machine.agenda = .answer reply :: rest) :
    machine.step.world.client = machine.world.client.keeping machine.frame.keep reply.values ∧
      machine.step.agenda = rest ∧ machine.step.frame = { machine.frame with reply } := by
  have parts := parts_answer { machine with agenda := rest } reply
  rw [step_of_cons shape]
  exact ⟨client_answer { machine with agenda := rest } reply, parts.1, parts.2.1⟩

inductive Keeping (client : Client) (frame : Frame) (reply : Reply) (machine : Machine) : Prop
  | waiting {early late : List Task} (agenda : machine.agenda = early ++ .answer reply :: late)
      (silent : ∀ task ∈ early ++ late, task.Silent) (same : machine.world.client = client)
      (framed : machine.frame = frame) : Keeping client frame reply machine
  | done (silent : ∀ task ∈ machine.agenda, task.Silent)
      (kept : machine.world.client = client.keeping frame.keep reply.values)
      (framed : machine.frame = { frame with reply }) : Keeping client frame reply machine

variable {client : Client} {frame : Frame} {reply : Reply}

theorem Keeping.step (keeping : machine.Keeping client frame reply) (calm : machine.Calm) :
    machine.step.Keeping client frame reply := by
  cases keeping with
  | @waiting early late agenda silent same framed =>
      cases early with
      | nil =>
          obtain ⟨kept, next, after⟩ := step_of_answer agenda
          rw [framed] at kept after
          apply Keeping.done
          · rw [next]
            exact silent
          · rw [kept, same]
          · exact after
      | cons task more =>
          have quiet := silent task (by simp)
          obtain ⟨world, next, after⟩ := step_of_native agenda
            (calm.native task (by simp [agenda])) fun reply equal => by
              rw [equal] at quiet
              exact quiet
          refine @Keeping.waiting client frame reply machine.step
            ((machine.world.handle task).2 ++ more) late ?_ ?_ ?_ (after.trans framed)
          · rw [next, List.append_assoc]
            rfl
          · intro other member
            rw [List.append_assoc] at member
            rcases List.mem_append.1 member with new | old
            · exact silent_handle calm.tidy quiet other new
            · exact silent other (List.mem_cons_of_mem task old)
          · rw [world, World.client_handle calm.tidy quiet, same]
  | done silent kept framed =>
      cases shape : machine.agenda with
      | nil =>
          rw [step_of_nil shape]
          exact .done silent kept framed
      | cons task rest =>
          have quiet := silent task (by simp [shape])
          obtain ⟨world, next, after⟩ := step_of_native shape
            (calm.native task (by simp [shape])) fun reply equal => by
              rw [equal] at quiet
              exact quiet
          apply Keeping.done
          · intro other member
            rw [next] at member
            rcases List.mem_append.1 member with new | old
            · exact silent_handle calm.tidy quiet other new
            · exact silent other (by simp [shape, old])
          · rw [world, World.client_handle calm.tidy quiet, kept]
          · exact after.trans framed

theorem Keeping.run (keeping : machine.Keeping client frame reply) (calm : machine.Calm)
    (fuel : Nat) : (machine.run fuel).Keeping client frame reply :=
  calm.keeps (·.Keeping client frame reply) keeping (fun _ calm keeping => keeping.step calm) fuel

theorem Keeping.ended {ended : Machine} (keeping : machine.Keeping client frame reply)
    (calm : machine.Calm) {fuel : Nat} (ran : machine.run fuel = ended)
    (idle : ended.agenda = []) :
    ended.world.client = client.keeping frame.keep reply.values ∧
      ended.frame = { frame with reply } := by
  have later := keeping.run calm fuel
  rw [ran] at later
  cases later with
  | waiting shape => simp [idle] at shape
  | done silent kept framed => exact ⟨kept, framed⟩

/-- A collection has so much left to do, and keeps no answer. -/
structure Collecting (client : Client) (frame : Frame) (machine : Machine) : Prop where
  counts : ∀ task ∈ machine.agenda, task.Counts
  same : machine.world.client = client
  framed : ∃ reply, machine.frame = { frame with reply }

theorem Collecting.step (collecting : machine.Collecting client frame) (calm : machine.Calm) :
    machine.step.Collecting client frame := by
  obtain ⟨counts, same, reply, framed⟩ := collecting
  cases shape : machine.agenda with
  | nil =>
      rw [step_of_nil shape]
      exact ⟨counts, same, reply, framed⟩
  | cons task rest =>
      have native := calm.native task (by simp [shape])
      obtain ⟨left, names⟩ := World.counts_handle calm.tidy (counts task (by simp [shape]))
      obtain ⟨agenda, -⟩ := step_native shape native
      have moved : machine.step.world.client = client ∧
          ∃ reply, machine.step.frame = { frame with reply } := by
        by_cases asks : ∃ given, task = .answer given
        · obtain ⟨given, rfl⟩ := asks
          have listed : Task.answer given ∈ machine.agenda := by simp [shape]
          obtain ⟨total, rfl⟩ : ∃ total, given = .number total := counts _ listed
          obtain ⟨kept, -, after⟩ := step_of_answer shape
          refine ⟨?_, .number total, by rw [after, framed]⟩
          rw [kept, ← same]
          cases machine.frame.keep <;> rfl
        · obtain ⟨world, -, after⟩ := step_of_native shape native
            fun given equal => asks ⟨given, equal⟩
          exact ⟨by rw [world, names, same], reply, after.trans framed⟩
      refine ⟨?_, moved.1, moved.2⟩
      intro other member
      rw [agenda] at member
      rcases List.mem_append.1 member with new | old
      · exact left other new
      · exact counts other (by simp [shape, old])

theorem Collecting.run (collecting : machine.Collecting client frame) (calm : machine.Calm)
    (fuel : Nat) : (machine.run fuel).Collecting client frame :=
  calm.keeps (·.Collecting client frame) collecting
    (fun _ calm collecting => collecting.step calm) fuel

structure Returning (before : World) (given : List Value) (machine : Machine)
    (amounts : ObjectId → Nat) : Prop where
  calm : machine.Calm
  mild : ∀ task ∈ machine.agenda, task.Mild
  lowered : World.Lowered before machine.world amounts
  accounts : ∀ id, amounts id + machine.carried.count (.object id) = given.count (.object id)

variable {before : World} {given : List Value} {amounts : ObjectId → Nat}

theorem Returning.step (returning : machine.Returning before given amounts)
    (mildNext : ∀ task rest, machine.agenda = task :: rest →
      ∀ next ∈ (machine.world.handle task).2, next.Mild) :
    ∃ more, machine.step.Returning before given more := by
  cases shape : machine.agenda with
  | nil =>
      rw [step_of_nil shape]
      exact ⟨amounts, returning⟩
  | cons task rest =>
      have mild := returning.mild task (by simp [shape])
      obtain ⟨agenda, world, -, -⟩ := step_native shape mild.native
      obtain ⟨reclaims, removes, binds⟩ := mild.plain
      obtain ⟨less, lowers⟩ :=
        World.lowers_handle returning.calm.tidy mild.native reclaims removes binds
      refine ⟨fun id => amounts id + less id, returning.calm.step, ?_, ?_, ?_⟩
      · intro next member
        rw [agenda] at member
        rcases List.mem_append.1 member with new | old
        · exact mildNext task rest shape next new
        · exact returning.mild next (by simp [shape, old])
      · have now := returning.lowered.trans lowers.lowered
        rcases world with same | ⟨register, kept, same⟩
        · rw [same]
          exact now
        · rw [same]
          exact now.trans (World.lowered_register _ register kept)
      · intro id
        have accounts := returning.accounts id
        have balance := lowers.balance id
        simp only [carried, shape, agenda, List.flatMap_cons, List.flatMap_append,
          List.count_append] at accounts ⊢
        omega

/-- A mild task leaves mild tasks, unless an object is reclaimed at once. -/
theorem mild_handle {world : World} (tidy : world.Tidy) {task : Task} (mild : task.Mild)
    (spares : ∀ value, task = .release value → (world.release value).2 = []) :
    ∀ next ∈ (world.handle task).2, next.Mild := by
  rcases mild with follows | ⟨label, rfl⟩
  · cases task with
    | release value => simp [World.handle, spares value rfl]
    | drop held =>
        simp [World.handle, World.dropReference, tidy.running, Task.Mild, Task.Follows]
    | settle id => simp [World.handle, World.settle_bridge_of_tidy tidy]
    | report event => simp [World.handle]
    | endCall id =>
        have upkeep := World.upkeep_activity world id (· - 1)
        simp [World.handle, World.endCall, World.settle_bridge_of_tidy (upkeep.tidy tidy)]
    | answer reply => simp [World.handle]
    | _ => exact follows.elim
  · simp [World.handle]

/-- References are given back while objects wait: counts are lower, and what is still to be
given back is less. -/
structure Lowering (before : World) (given : List Value) (machine : Machine)
    (amounts : ObjectId → Nat) : Prop where
  calm : machine.Calm
  mode : machine.world.engine.mode = .deferred
  mild : ∀ task ∈ machine.agenda, task.Mild
  lowered : World.Lowered before machine.world amounts
  accounts : ∀ id, amounts id + machine.carried.count (.object id) = given.count (.object id)

/-- Nothing is reclaimed at once where objects wait. -/
theorem release_of_deferred {world : World} (mode : world.engine.mode = .deferred)
    (value : Value) : (world.release value).2 = [] := by
  cases value with
  | object id =>
      by_cases held : 0 < world.references id
      · obtain ⟨object, count, found, counted⟩ := World.object_of_references held
        by_cases last : count = 0
        · simp [World.release, World.releaseObject, found, counted, last, World.putObject, mode]
        · simp [World.release, World.releaseObject, found, counted, last]
      · obtain ⟨event, same⟩ := World.release_of_unreferenced (Nat.eq_zero_of_not_pos held)
        simp [same]
  | _ => rfl

theorem Lowering.step (lowering : machine.Lowering before given amounts) :
    ∃ more, machine.step.Lowering before given more := by
  have returning : machine.Returning before given amounts :=
    ⟨lowering.calm, lowering.mild, lowering.lowered, lowering.accounts⟩
  obtain ⟨more, later⟩ := returning.step fun task rest shape =>
    mild_handle lowering.calm.tidy (lowering.mild task (by simp [shape])) fun value _ =>
      release_of_deferred lowering.mode value
  refine ⟨more, later.calm, ?_, later.mild, later.lowered, later.accounts⟩
  rw [lowering.calm.mode_step]
  exact lowering.mode

theorem Lowering.run (lowering : machine.Lowering before given amounts) (fuel : Nat) :
    ∃ more, (machine.run fuel).Lowering before given more := by
  refine lowering.calm.keeps (fun machine => ∃ more, machine.Lowering before given more)
    ⟨amounts, lowering⟩ ?_ fuel
  rintro _ - ⟨_, lowering⟩
  exact lowering.step

/-- Where objects wait, what is given back in a run to the end is off the counts. -/
theorem lowered_of_deferred {ended : Machine} (calm : machine.Calm)
    (mode : machine.world.engine.mode = .deferred) (mild : ∀ task ∈ machine.agenda, task.Mild)
    {fuel : Nat} (ran : machine.run fuel = ended) (idle : ended.agenda = []) :
    World.Lowered machine.world ended.world fun id => machine.carried.count (.object id) := by
  have start : machine.Lowering machine.world machine.carried fun _ => 0 :=
    ⟨calm, mode, mild, .refl machine.world, fun id => Nat.zero_add _⟩
  obtain ⟨amounts, lowering⟩ := start.run fuel
  rw [ran] at lowering
  have all : amounts = fun id => machine.carried.count (.object id) := by
    funext id
    have accounts := lowering.accounts id
    simpa [carried, idle] using accounts
  rw [← all]
  exact lowering.lowered

/-- No object loses its last reference, so nothing comes of a reference that is given back. -/
theorem Returning.spares (returning : machine.Returning before given amounts)
    (spared : ∀ id object, before.engine.heap.get? id = some object → .object id ∈ given →
      given.count (.object id) < object.refCount) {value : Value} {rest : List Task}
    (shape : machine.agenda = .release value :: rest) : (machine.world.release value).2 = [] := by
  apply World.release_of_counted
  intro object found
  cases value with
  | object id =>
      have reached : machine.world.engine.heap.get? id = some object := found
      rw [returning.lowered.objects, Option.map_eq_some_iff] at reached
      obtain ⟨old, held, rfl⟩ := reached
      have accounts := returning.accounts id
      simp only [carried, shape, List.flatMap_cons, Task.carried, List.count_append,
        List.count_singleton_self] at accounts
      have enough := spared id old held (List.count_pos_iff.1 (by omega))
      dsimp only
      omega
  | _ => cases found

theorem Returning.run (returning : machine.Returning before given amounts)
    (spared : ∀ id object, before.engine.heap.get? id = some object → .object id ∈ given →
      given.count (.object id) < object.refCount) (fuel : Nat) :
    ∃ more, (machine.run fuel).Returning before given more := by
  refine returning.calm.keeps (fun machine => ∃ more, machine.Returning before given more)
    ⟨amounts, returning⟩ ?_ fuel
  rintro machine calm ⟨amounts, returning⟩
  apply returning.step
  intro task rest shape
  refine mild_handle calm.tidy (returning.mild task (by simp [shape])) ?_
  rintro value rfl
  exact returning.spares spared shape

/-- What is given back in a run to the end is off the counts, and nothing else is different. -/
theorem lowered_of_run {ended : Machine} (calm : machine.Calm)
    (mild : ∀ task ∈ machine.agenda, task.Mild)
    (spared : ∀ id object, machine.world.engine.heap.get? id = some object →
      .object id ∈ machine.carried → machine.carried.count (.object id) < object.refCount)
    {fuel : Nat}
    (ran : machine.run fuel = ended) (idle : ended.agenda = []) :
    World.Lowered machine.world ended.world fun id => machine.carried.count (.object id) := by
  have start : machine.Returning machine.world machine.carried fun _ => 0 :=
    ⟨calm, mild, .refl machine.world, fun id => Nat.zero_add _⟩
  obtain ⟨amounts, returning⟩ := start.run spared fuel
  rw [ran] at returning
  have all : amounts = fun id => machine.carried.count (.object id) := by
    funext id
    have accounts := returning.accounts id
    simpa [carried, idle] using accounts
  rw [← all]
  exact returning.lowered

end Steps

end Machine

end ScriptSignal
