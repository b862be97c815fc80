import ScriptSignal.Proofs.Record

/-!
# Bridges keep the lives of their handles

While a request is under way Signals may be finalized in the middle of it, and a new handle
is bound late. Whatever happens, a handle goes on to the life that the record has for it, or
its object is gone in the end. So after every request slots and tables say of every handle
what the record says, and every call is answered as the record has it.
-/

namespace ScriptSignal

set_option autoImplicit false

namespace World

section Tasks

variable {world : World}

inductive Handled (world : World) : Task → Outcome → Prop
  | plain {task : Task} {outcome : Outcome} (plain : outcome.Plain world) (binds : ¬task.Binds)
      (removes : ∀ id, task ≠ .remove id) : Handled world task outcome
  | reclaim (id : ObjectId) :
      Handled world (.reclaim id)
        ((world.runFinalizer id).1, (world.runFinalizer id).2 ++ [.remove id])
  | remove (id : ObjectId) : Handled world (.remove id) (world.removeObject id)
  | bind (id : BridgeId) (route : Route) (handle : Value) (link : Option StrongRef) :
      Handled world (.bind id route handle link) (world.bindSignal id route handle link)

theorem handled (tidy : world.Tidy) (grounded : world.Grounded) {task : Task}
    (native : task.Native) : world.Handled task (world.handle task) := by
  have idle : ¬task.Binds → (∀ id, task ≠ .remove id) → world.Handled task (world, []) :=
    .plain (plain_nothing .refl)
  cases task with
  | release value => exact .plain (plain_release grounded value) id (by simp)
  | drop held => exact .plain (plain_drop_reference world held) id (by simp)
  | reclaim id =>
      simp only [handle, World.reclaim]
      split
      · exact idle (fun binds => binds) (by simp)
      · split
        · exact .reclaim id
        · exact .plain (plain_nothing (changes_emit world _)) (fun binds => binds) (by simp)
  | remove id => exact .remove id
  | drain count => exact .plain (plain_drain grounded count) id (by simp)
  | reportCollection before => exact .plain (plain_report_collection world before) id (by simp)
  | report event => exact .plain (plain_nothing (changes_emit world event)) id (by simp)
  | bind bridge route handle link => exact .bind bridge route handle link
  | endCall bridge =>
      have upkeep := upkeep_activity world bridge (· - 1)
      simp only [handle, endCall, settle_bridge_of_tidy (upkeep.tidy tidy)]
      exact .plain (plain_nothing (.single (.activity world bridge (· - 1)))) id (by simp)
  | settle bridge =>
      simp only [handle, settle_bridge_of_tidy tidy]
      exact idle id (by simp)
  | answer reply => exact idle id (by simp)
  | finish label => exact idle id (by simp)
  | enter body receiver arguments purpose => exact native.elim
  | leave body purpose => exact native.elim
  | perform step => exact native.elim
  | iterate times steps => exact native.elim

/-- A task does what was to come of it, unless it goes to the end of an object. -/
theorem Handled.prospect {task : Task} {outcome : Outcome} (handled : world.Handled task outcome)
    (coherent : world.Coherent) (room : outcome.1.Roomy)
    (awaits : ∀ id route bound link, task = .bind id route bound link → world.Awaits id bound)
    (bridge : BridgeId) (handle : Value) :
    outcome.1.prospect outcome.2 bridge handle =
        Task.living bridge handle (world.life bridge handle) task ∨
      ∃ id, handle = .object id ∧ (.remove id ∈ outcome.2 ∨ task = .remove id) := by
  cases handled with
  | plain plain binds removes =>
      left
      rw [prospect_of_plain plain]
      cases task with
      | bind id route bound link => exact absurd trivial binds
      | _ => rfl
  | reclaim id =>
      by_cases here : handle = .object id
      · exact .inr ⟨id, here, .inl (by simp)⟩
      · left
        have regular := regular_run_finalizer coherent.grounded id
        have unbinding : ∀ task ∈ (world.runFinalizer id).2 ++ [Task.remove id], ¬task.Binds := by
          intro task member
          rcases List.mem_append.1 member with early | late
          · exact (regular.ordinary task early).not_binds
          · cases List.mem_singleton.1 late
            exact fun binds => binds
        unfold World.prospect
        rw [living_of_unbinding unbinding, life_run_finalizer coherent.paired coherent.tidy,
          if_neg here]
        rfl
  | remove id =>
      by_cases here : handle = .object id
      · exact .inr ⟨id, here, .inr rfl⟩
      · left
        have unbinding : ∀ task ∈ (world.removeObject id).2, ¬task.Binds := by
          intro task member
          obtain ⟨value, rfl⟩ := Machine.releases_of_remove_object world id task member
          exact fun binds => binds
        unfold World.prospect
        rw [living_of_unbinding unbinding, life_remove_object, if_neg here]
        rfl
  | bind id route bound link =>
      left
      have waiting := awaits id route bound link rfl
      have later := life_bind_signal coherent.paired waiting
        (fun bridge reached => room id bridge reached) bridge handle
      obtain ⟨held, found, -⟩ := waiting
      have tasks : (world.bindSignal id route bound link).2 =
          [.answer (route.reply (.ok bound))] := by
        rw [bind_signal_eq found]
      unfold World.prospect
      rw [tasks, later]
      rfl

/-- No task brings an object back. -/
theorem Handled.dead {task : Task} {outcome : Outcome} (handled : world.Handled task outcome)
    (tidy : world.Tidy) {value : Value} (known : value.Within world.size)
    (dead : world.isAlive value = false) : outcome.1.isAlive value = false := by
  cases handled with
  | plain plain binds removes => exact plain.changes.dead known dead
  | reclaim id =>
      rcases run_finalizer_cases tidy id with same | ⟨bridge, same⟩
      · simp only [same, dead]
      · simp only [same, is_alive_finalize_signal, dead]
  | remove id =>
      have gone : world.kind? value = none := by
        simpa [isAlive, kind?] using dead
      have kinds := kind_remove_object world id value
      rw [gone, ite_self] at kinds
      simpa [isAlive, kind?] using kinds
  | bind id route bound link => rw [is_alive_bind_signal, dead]

theorem dead_remove_object (world : World) (id : ObjectId) :
    (world.removeObject id).1.isAlive (.object id) = false := by
  have kinds := kind_remove_object world id (.object id)
  rw [if_pos rfl] at kinds
  simpa [isAlive, kind?] using kinds

end Tasks

end World

namespace Machine

/-- A machine of Signals only, in a run in which no slot is written. -/
structure Sheltered (machine : Machine) : Prop where
  calm : machine.Calm
  reached : ∀ classId, Reachable classId machine

def Doomed (machine : Machine) (handle : Value) : Prop :=
  (∃ id, handle = .object id ∧ .remove id ∈ machine.agenda) ∨
    handle.Within machine.world.size ∧ machine.world.isAlive handle = false

def prospect (machine : Machine) : BridgeId → Value → Life :=
  machine.world.prospect machine.agenda

section Step

variable {machine : Machine}

theorem Sheltered.orderly (sheltered : machine.Sheltered) (classId : ClassId) :
    machine.Orderly classId :=
  (sheltered.reached classId).orderly sheltered.calm.tidy.running

theorem Sheltered.grounded (sheltered : machine.Sheltered) : machine.Grounded :=
  (sheltered.orderly default).grounded

theorem Sheltered.coherent (sheltered : machine.Sheltered) (room : machine.world.Roomy) :
    machine.world.Coherent where
  tidy := sheltered.calm.tidy
  grounded := sheltered.grounded.world
  bound := fun classId => (sheltered.orderly classId).bound
  room := room

theorem Sheltered.run (sheltered : machine.Sheltered) (fuel : Nat) :
    (machine.run fuel).Sheltered where
  calm := sheltered.calm.run fuel
  reached := fun classId => sheltered.calm.reachable_run (sheltered.reached classId) fuel

theorem Sheltered.step (sheltered : machine.Sheltered) : machine.step.Sheltered := by
  cases shape : machine.agenda with
  | nil =>
      rw [step_of_nil shape]
      exact sheltered
  | cons task rest =>
      have once : machine.run 1 = machine.step := by simp [Machine.run, shape]
      rw [← once]
      exact sheltered.run 1

/-- What every step of a sheltered machine keeps is kept by its runs. -/
theorem Sheltered.keeps (sheltered : machine.Sheltered) (Kept : Machine → Prop)
    (kept : Kept machine)
    (step : ∀ machine : Machine, machine.Sheltered → Kept machine → Kept machine.step)
    (fuel : Nat) : Kept (machine.run fuel) :=
  run_of_step Sheltered Kept sheltered kept (fun _ sheltered => sheltered.step) step fuel

theorem Sheltered.persists_step (sheltered : machine.Sheltered) :
    World.Persists machine.world machine.step.world := by
  cases shape : machine.agenda with
  | nil =>
      rw [step_of_nil shape]
      exact .refl _
  | cons task rest =>
      exact (sheltered.grounded.stepped shape).persists sheltered.step.calm.tidy.running

theorem Sheltered.persists_run (sheltered : machine.Sheltered) (fuel : Nat) :
    World.Persists machine.world (machine.run fuel).world :=
  sheltered.keeps (fun later => World.Persists machine.world later.world) (.refl _)
    (fun _ sheltered persists => persists.trans sheltered.persists_step) fuel

theorem seen_of_register {after world : World}
    (same : after = world ∨ ∃ register kept, after = world.setRegister register kept) :
    (∀ bridge handle, after.life bridge handle = world.life bridge handle) ∧
      (∀ handle, after.isAlive handle = world.isAlive handle) ∧
      ∀ id, after.bridge? id = world.bridge? id := by
  rcases same with rfl | ⟨register, kept, rfl⟩
  · exact ⟨fun _ _ => rfl, fun _ => rfl, fun _ => rfl⟩
  · exact ⟨fun _ _ => rfl, fun _ => rfl, fun _ => rfl⟩

theorem Doomed.step {handle : Value} (doomed : machine.Doomed handle)
    (sheltered : machine.Sheltered) : machine.step.Doomed handle := by
  cases shape : machine.agenda with
  | nil =>
      rw [step_of_nil shape]
      exact doomed
  | cons task rest =>
      have native := sheltered.calm.native task (by simp [shape])
      obtain ⟨agenda, world, -, -⟩ := step_native shape native
      obtain ⟨-, alive, -⟩ := seen_of_register world
      have grows := sheltered.persists_step.size
      rcases doomed with ⟨id, rfl, waiting⟩ | ⟨known, dead⟩
      · rw [shape] at waiting
        rcases List.mem_cons.1 waiting with rfl | later
        · have known : (Value.object id).Within machine.world.size :=
            sheltered.grounded.agenda (.remove id) (by simp [shape])
          refine .inr ⟨known.mono grows, ?_⟩
          rw [alive]
          exact World.dead_remove_object machine.world id
        · exact .inl ⟨id, rfl, by simp [agenda, later]⟩
      · refine .inr ⟨known.mono grows, ?_⟩
        rw [alive]
        have handled := World.handled sheltered.calm.tidy sheltered.grounded.world native
        exact handled.dead sheltered.calm.tidy known dead

theorem Doomed.run {handle : Value} (doomed : machine.Doomed handle)
    (sheltered : machine.Sheltered) (fuel : Nat) : (machine.run fuel).Doomed handle :=
  sheltered.keeps (·.Doomed handle) doomed (fun _ sheltered doomed => doomed.step sheltered) fuel

theorem Sheltered.prospect_step (sheltered : machine.Sheltered) (room : machine.step.world.Roomy)
    (bridge : BridgeId) (handle : Value) :
    machine.step.prospect bridge handle = machine.prospect bridge handle ∨
      machine.step.Doomed handle := by
  cases shape : machine.agenda with
  | nil =>
      rw [step_of_nil shape]
      exact .inl rfl
  | cons task rest =>
      have native := sheltered.calm.native task (by simp [shape])
      obtain ⟨agenda, world, -, -⟩ := step_native shape native
      obtain ⟨lives, -, bridges⟩ := seen_of_register world
      have larger : (machine.world.handle task).1.Roomy := by
        intro id held found
        exact room id held ((bridges id).trans found)
      have awaits : ∀ id route bound link, task = .bind id route bound link →
          machine.world.Awaits id bound := by
        rintro id route bound link rfl
        have poised := (sheltered.orderly default).poised
        rw [shape] at poised
        exact poised.awaits
      have coherent := sheltered.coherent (sheltered.persists_step.roomy room)
      have handled := World.handled coherent.tidy coherent.grounded native
      rcases handled.prospect coherent larger awaits bridge handle with same | ⟨id, rfl, ends⟩
      · left
        have before : machine.prospect bridge handle = rest.foldl (Task.living bridge handle)
            (Task.living bridge handle (machine.world.life bridge handle) task) := by
          simp [prospect, World.prospect, shape]
        unfold World.prospect at same
        rw [before, ← same]
        unfold prospect World.prospect
        rw [agenda, List.foldl_append, lives]
      · rcases ends with waiting | rfl
        · exact .inr (.inl ⟨id, rfl, by simp [agenda, waiting]⟩)
        · have doomed : machine.Doomed (.object id) := .inl ⟨id, rfl, by simp [shape]⟩
          exact .inr (doomed.step sheltered)

/-- What is to come of a handle comes, unless its object is reclaimed on the way. -/
theorem Sheltered.prospect_run (sheltered : machine.Sheltered) {fuel : Nat}
    (room : (machine.run fuel).world.Roomy) (bridge : BridgeId) (handle : Value) :
    (machine.run fuel).prospect bridge handle = machine.prospect bridge handle ∨
      (machine.run fuel).Doomed handle := by
  induction fuel generalizing machine with
  | zero => exact .inl rfl
  | succ fuel induction =>
      unfold Machine.run at room ⊢
      split at room
      · rename_i idle
        rw [if_pos idle]
        exact .inl rfl
      · rename_i busy
        rw [if_neg busy]
        have early := (sheltered.step.persists_run fuel).roomy room
        rcases sheltered.prospect_step early bridge handle with same | doomed
        · rw [← same]
          exact induction sheltered.step room
        · exact .inr (doomed.run sheltered.step fuel)

theorem silent_handle {world : World} (tidy : world.Tidy) {task : Task} (silent : task.Silent) :
    ∀ next ∈ (world.handle task).2, next.Silent := by
  have releases : ∀ values : List Value, ∀ next ∈ values.map Task.release, next.Silent := by
    intro values next member
    obtain ⟨value, -, rfl⟩ := List.mem_map.1 member
    trivial
  cases task with
  | release value =>
      cases value with
      | object id =>
          by_cases held : 0 < world.references id
          · obtain ⟨object, count, found, counted⟩ := World.object_of_references held
            rcases World.release_cases found counted with ⟨-, same⟩ | ⟨-, -, same⟩ | ⟨-, same⟩
            · simp [World.handle, same, Task.Silent, Task.Native]
            · simp [World.handle, same]
            · simp [World.handle, same]
          · obtain ⟨event, same⟩ := World.release_of_unreferenced (Nat.eq_zero_of_not_pos held)
            simp [World.handle, same]
      | _ => simp [World.handle, World.release]
  | drop held => simp [World.handle, World.dropReference, tidy.running, Task.Silent, Task.Native]
  | reclaim id =>
      simp only [World.handle, World.reclaim]
      split
      · simp
      · split
        · obtain ⟨-, gives, -⟩ := World.run_finalizer_law tidy id
          intro next member
          rcases List.mem_append.1 member with early | last
          · have giving := gives next early
            cases next <;> trivial
          · cases List.mem_singleton.1 last
            trivial
        · simp
  | remove id =>
      simp only [World.handle, World.removeObject]
      split
      · simp
      · exact releases _
  | drain count =>
      simp only [World.handle, World.drain]
      split
      · simp [Task.Silent, Task.Native]
      · split <;> simp
  | report event => simp [World.handle]
  | endCall id =>
      have upkeep := World.upkeep_activity world id (· - 1)
      simp [World.handle, World.endCall, World.settle_bridge_of_tidy (upkeep.tidy tidy)]
  | settle id => simp [World.handle, World.settle_bridge_of_tidy tidy]
  | finish label => simp [World.handle]
  | _ => exact silent.elim

/-- What the step under way is to answer, or has answered. -/
def Promised (machine : Machine) (reply : Reply) : Prop :=
  Promising reply machine.agenda ∨
    machine.frame.reply = reply ∧ ∀ task ∈ machine.agenda, task.Silent

theorem Promised.step {reply : Reply} (promised : machine.Promised reply)
    (sheltered : machine.Sheltered) : machine.step.Promised reply := by
  have tidy := sheltered.calm.tidy
  rcases promised with ⟨early, asked, late, shape, gives, silent⟩ | ⟨given, silent⟩
  · have native := sheltered.calm.native
    cases early with
    | cons task more =>
        obtain ⟨agenda, -⟩ := step_native shape (native task (by simp [shape]))
        refine .inl ⟨(machine.world.handle task).2 ++ more, asked, late, ?_, gives, silent⟩
        rw [agenda, List.append_assoc]
        rfl
    | nil =>
        obtain ⟨agenda, -, -, answers⟩ := step_native shape (native asked (by simp [shape]))
        cases asked with
        | answer given =>
            right
            refine ⟨(answers given rfl).trans gives, ?_⟩
            rw [agenda]
            exact silent
        | bind id route handle link =>
            have poised := (sheltered.orderly default).poised
            rw [shape] at poised
            obtain ⟨bridge, found, -⟩ := poised.awaits
            have tasks : (machine.world.handle (.bind id route handle link)).2 =
                [.answer reply] := by
              simp only [World.handle, World.bind_signal_eq found]
              rw [← show route.reply (.ok handle) = reply from gives]
            exact .inl ⟨[], .answer reply, late, by rw [agenda, tasks]; rfl, rfl, silent⟩
        | _ => exact gives.elim
  · cases shape : machine.agenda with
    | nil =>
        rw [step_of_nil shape]
        exact .inr ⟨given, silent⟩
    | cons task rest =>
        have quiet := silent task (by simp [shape])
        obtain ⟨agenda, -, kept, -⟩ :=
          step_native shape (sheltered.calm.native task (by simp [shape]))
        right
        refine ⟨?_, ?_⟩
        · rw [kept, given]
          rintro reply rfl
          exact quiet
        · intro next member
          rw [agenda] at member
          rcases List.mem_append.1 member with new | old
          · exact silent_handle tidy quiet next new
          · exact silent next (by simp [shape, old])

theorem Promised.run {reply : Reply} (promised : machine.Promised reply)
    (sheltered : machine.Sheltered) (fuel : Nat) : (machine.run fuel).Promised reply :=
  sheltered.keeps (·.Promised reply) promised
    (fun _ sheltered promised => promised.step sheltered) fuel

inductive Delivering (machine : Machine) (handle : Value) : Prop
  | counting {proto : Value} {id : BridgeId} {route : Route} {link : Option StrongRef}
      {late : List Task}
      (agenda : machine.agenda = .release proto :: .bind id route handle link :: late)
      (closing : ∀ task ∈ late, task.Closes) (alive : machine.world.isAlive handle = true)
  | closing (closing : ∀ task ∈ machine.agenda, task.Closes ∨ task.Binds ∨
      ∃ reply, task = .answer reply) (alive : machine.world.isAlive handle = true)

theorem Delivering.step {handle : Value} (delivering : machine.Delivering handle)
    (sheltered : machine.Sheltered) : machine.step.Delivering handle := by
  have tidy := sheltered.calm.tidy
  have poised := (sheltered.orderly default).poised
  cases delivering with
  | @counting proto id route link late agenda closing alive =>
      have counted : ∀ object, machine.world.object? proto = some object → 2 ≤ object.refCount := by
        rw [agenda] at poised
        cases poised with
        | idle free => exact absurd trivial (free (.bind id route handle link) (by simp))
        | release counted awaits spared free => exact counted
      obtain ⟨after, world, -, -⟩ := step_native agenda (sheltered.calm.native _ (by simp [agenda]))
      obtain ⟨-, kept, -⟩ := seen_of_register world
      have changes := (World.plain_release sheltered.grounded.world proto).changes
      have nothing : (machine.world.handle (.release proto)).2 = [] :=
        World.release_of_counted counted
      apply Delivering.closing
      · intro task member
        rw [after, nothing, List.nil_append] at member
        rcases List.mem_cons.1 member with rfl | later
        · exact .inr (.inl trivial)
        · exact .inl (closing task later)
      · rw [kept]
        exact changes.alive alive
  | closing closing alive =>
      cases shape : machine.agenda with
      | nil =>
          rw [step_of_nil shape]
          exact .closing closing alive
      | cons task rest =>
          obtain ⟨after, world, -, -⟩ :=
            step_native shape (sheltered.calm.native task (by simp [shape]))
          obtain ⟨-, kept, -⟩ := seen_of_register world
          have early := closing task (by simp [shape])
          have outcome : (∀ next ∈ (machine.world.handle task).2, ∃ reply, next = .answer reply) ∧
              (machine.world.handle task).1.isAlive handle = machine.world.isAlive handle := by
            cases task with
            | endCall id =>
                have upkeep := World.upkeep_activity machine.world id (· - 1)
                simp only [World.handle, World.endCall,
                  World.settle_bridge_of_tidy (upkeep.tidy tidy)]
                exact ⟨by simp, rfl⟩
            | bind id route bound link =>
                rw [shape] at poised
                obtain ⟨bridge, found, -⟩ := poised.awaits
                refine ⟨?_, World.is_alive_bind_signal _ id route bound link handle⟩
                simp [World.handle, World.bind_signal_eq found]
            | answer reply => exact ⟨by simp [World.handle], rfl⟩
            | finish label => exact ⟨by simp [World.handle], rfl⟩
            | _ => simp [Task.Closes, Task.Binds] at early
          apply Delivering.closing
          · intro next member
            rw [after] at member
            rcases List.mem_append.1 member with new | old
            · exact .inr (.inr (outcome.1 next new))
            · exact closing next (by simp [shape, old])
          · rw [kept, outcome.2]
            exact alive

theorem Delivering.run {handle : Value} (delivering : machine.Delivering handle)
    (sheltered : machine.Sheltered) (fuel : Nat) : (machine.run fuel).Delivering handle :=
  sheltered.keeps (·.Delivering handle) delivering
    (fun _ sheltered delivering => delivering.step sheltered) fuel

theorem Delivering.alive {handle : Value} (delivering : machine.Delivering handle) :
    machine.world.isAlive handle = true := by
  cases delivering with
  | counting agenda closing alive => exact alive
  | closing closing alive => exact alive

end Step

section Serving

variable {machine ended : Machine} {lives : Lives} {label : String} {command : Command}
  {keep : Option String}

theorem Sheltered.begin (sheltered : machine.Sheltered) (idle : machine.agenda = [])
    (offered : command.Offered) (known : (Step.act label command keep).Known machine.world) :
    (machine.submit (.act label command keep)).step.Sheltered where
  calm := sheltered.calm.begin idle offered
  reached := fun classId =>
    ((sheltered.reached classId).submit idle known).step sheltered.calm.tidy.running
      (slot_written_submit idle offered classId)

theorem Sheltered.persists_begin (sheltered : machine.Sheltered) (idle : machine.agenda = [])
    (offered : command.Offered) (known : (Step.act label command keep).Known machine.world) :
    World.Persists machine.world (machine.submit (.act label command keep)).step.world := by
  have shape : (machine.submit (.act label command keep)).agenda =
      [.perform (.act label command keep)] := by
    simp [submit, idle]
  have begun := @Sheltered.begin machine label command keep sheltered idle offered known
  exact ((sheltered.grounded.submit known).stepped shape).persists begun.calm.tidy.running

theorem Sheltered.completed (sheltered : machine.Sheltered) (idle : machine.agenda = [])
    (offered : command.Offered) (known : (Step.act label command keep).Known machine.world)
    (completes : machine.Completes (.act label command keep) ended) :
    ended.agenda = [] ∧ ended.Sheltered ∧ World.Persists machine.world ended.world := by
  obtain ⟨fuel, ran, finished⟩ := run_of_completes completes
  have begun := @Sheltered.begin machine label command keep sheltered idle offered known
  have early := @Sheltered.persists_begin machine label command keep sheltered idle offered known
  have late := begun.persists_run fuel
  have kept := begun.run fuel
  rw [ran] at late kept
  exact ⟨finished, kept, early.trans late⟩

theorem reply_of_promising {reply : Reply} (sheltered : machine.Sheltered)
    (idle : machine.agenda = []) (offered : command.Offered)
    (known : (Step.act label command keep).Known machine.world)
    (completes : machine.Completes (.act label command keep) ended)
    (promising : Promising reply (machine.world.perform machine.read command).2) :
    ended.frame.reply = reply := by
  obtain ⟨fuel, ran, finished⟩ := run_of_completes completes
  have begun := @Sheltered.begin machine label command keep sheltered idle offered known
  obtain ⟨-, agenda⟩ := @step_submit machine label command keep idle offered
  have promised : (machine.submit (.act label command keep)).step.Promised reply := by
    left
    rw [agenda]
    exact promising.append (by simp [Task.Silent, Task.Native])
  have kept := promised.run begun fuel
  rw [ran] at kept
  rcases kept with ⟨early, asked, late, shape, -⟩ | ⟨given, -⟩
  · rw [finished] at shape
    simp at shape
  · exact given

/-- A construction that answers with a value answers with a new object, which is alive in the
end. -/
theorem returned_of_construct {call : Call} {handle : Value} (sheltered : machine.Sheltered)
    (idle : machine.agenda = []) (offered : command.Offered)
    (known : (Step.act label command keep).Known machine.world)
    (completes : machine.Completes (.act label command keep) ended)
    (asks : machine.world.request machine.read command = .call call)
    (construct : call.entry = .construct) (returned : ended.frame.reply = .value handle) :
    ended.world.isAlive handle = true ∧ ¬handle.Within machine.world.size ∧
      handle.Within ended.world.size := by
  have performed : machine.world.perform machine.read command = machine.world.place call :=
    World.perform_request sheltered.calm.tidy.running (by rw [asks]; rfl)
  have answered : ∀ promised, Promising promised (machine.world.place call).2 →
      ended.frame.reply = promised := by
    intro promised promising
    rw [← performed] at promising
    exact reply_of_promising sheltered idle offered known completes promising
  obtain ⟨fuel, ran, -⟩ := run_of_completes completes
  have begun := @Sheltered.begin machine label command keep sheltered idle offered known
  obtain ⟨world, agenda⟩ := @step_submit machine label command keep idle offered
  have constructs := @World.constructs_place machine.world call construct
  rw [performed] at world agenda
  generalize machine.world.place call = outcome at constructs answered world agenda
  cases constructs with
  | failed changes unbinding answers =>
      have failed := answered _ answers
      rw [returned] at failed
      exact absurd failed.symm (reply_error_ne_value call.route _ handle)
  | @made after proto new link late changes fresh alive links closing =>
      have promised : ended.frame.reply = .value (.object new) :=
        answered _ (promising_bind _ call.bridge call.route (.object new) link closing)
      rw [returned] at promised
      cases promised
      have delivering :
          (machine.submit (.act label command keep)).step.Delivering (.object new) := by
        apply Delivering.counting agenda
        · intro task member
          rcases List.mem_append.1 member with early | last
          · exact closing task early
          · cases List.mem_singleton.1 last
            trivial
        · rw [world]
          exact alive
      have kept := (delivering.run begun fuel).alive
      rw [ran] at kept
      refine ⟨kept, Nat.not_lt.2 fresh, ?_⟩
      obtain ⟨id, object, same, found⟩ := World.object_of_alive kept
      cases same
      exact World.within_of_get found

/-- After a request, slots and tables say of every handle what the record says. -/
theorem life_of_completes (sheltered : machine.Sheltered) (idle : machine.agenda = [])
    (agree : ∀ bridge handle, machine.world.life bridge handle = lives.of bridge handle)
    (offered : command.Offered) (known : (Step.act label command keep).Known machine.world)
    (completes : machine.Completes (.act label command keep) ended) (room : ended.world.Roomy)
    (bridge : BridgeId) (handle : Value) :
    ended.world.life bridge handle = (lives.after machine command ended).of bridge handle := by
  have answered : ∀ promised,
      Promising promised (machine.world.perform machine.read command).2 →
        ended.frame.reply = promised :=
    fun promised => reply_of_promising sheltered idle offered known completes
  obtain ⟨fuel, ran, finished⟩ := run_of_completes completes
  have begun := @Sheltered.begin machine label command keep sheltered idle offered known
  have persists := @Sheltered.persists_begin machine label command keep sheltered idle offered known
  obtain ⟨world, agenda⟩ := @step_submit machine label command keep idle offered
  have early : (machine.submit (.act label command keep)).step.world.Roomy := by
    apply (begun.persists_run fuel).roomy
    rw [ran]
    exact room
  have coherent := sheltered.coherent (persists.roomy early)
  have asked : (machine.submit (.act label command keep)).step.prospect bridge handle =
      (lives.request machine.world ended.frame.reply
        (machine.world.request machine.read command)).of bridge handle := by
    have grounded := sheltered.grounded
    rw [← World.prospect_perform coherent agree offered ?_ ?_ answered]
    · unfold prospect World.prospect
      rw [world, agenda, List.foldl_append]
      rfl
    · intro operand member
      exact within_read grounded.world grounded.frame (literals_of_operand member known)
    · exact fun value member => known value (List.mem_append_right _ member)
  have outcome := @Sheltered.prospect_run _ begun fuel (by rw [ran]; exact room) bridge handle
  rw [ran, asked] at outcome
  have now : ended.prospect bridge handle = ended.world.life bridge handle := by
    simp [prospect, World.prospect, finished]
  rw [now] at outcome
  unfold Lives.after
  rw [Lives.of_finalize]
  cases alive : ended.world.isAlive handle with
  | false =>
      rw [World.life_of_dead alive]
      rfl
  | true =>
      rcases outcome with same | ⟨id, -, waiting⟩ | ⟨-, dead⟩
      · exact same
      · rw [finished] at waiting
        cases waiting
      · rw [alive] at dead
        cases dead

end Serving

inductive Served (before : Machine × Lives) : Machine × Lives → Prop
  | request {label : String} {command : Command} {keep : Option String} {ended : Machine}
      (offered : command.Offered) (known : (Step.act label command keep).Known before.1.world)
      (completes : before.1.Completes (.act label command keep) ended) :
      Served before (ended, before.2.after before.1 command ended)

/-- A machine keeps to the record of its handles. -/
structure Faithful (machine : Machine) (lives : Lives) : Prop where
  /-- Slots and tables say of every handle what the record says. -/
  agrees : ∀ bridge handle, machine.world.life bridge handle = lives.of bridge handle
  /-- Every request is carried out. -/
  completes : ∀ label command keep, command.Offered →
    ∃ ended, machine.Completes (.act label command keep) ended
  /-- A call on a handle is answered as its life has it. -/
  answers : ∀ label command keep ended call result, command.Offered →
    (Step.act label command keep).Known machine.world →
    machine.Completes (.act label command keep) ended →
    machine.world.request machine.read command = .call call →
    lives.expected machine.world call = some result →
      ended.frame.reply = call.route.reply (result.map Prod.fst)
  /-- A construction returns a handle that was never returned before, and that is empty. -/
  returns : ∀ label command keep ended call handle, command.Offered →
    (Step.act label command keep).Known machine.world →
    machine.Completes (.act label command keep) ended →
    machine.world.request machine.read command = .call call → call.entry = .construct →
    ended.frame.reply = .value handle →
      (∀ bridge, lives bridge handle = none) ∧
        lives.after machine command ended call.bridge handle =
          some (.empty (call.arguments.any Value.isObject))
  /-- A finalized handle is finalized for ever. -/
  ends : ∀ bridge handle later, lives bridge handle = some .finalized →
    Relation.ReflTransGen Served (machine, lives) later →
      later.2 bridge handle = some .finalized

structure Standing (state : Machine × Lives) : Prop where
  idle : state.1.agenda = []
  sheltered : state.1.Sheltered
  known : ∀ bridge handle, state.2 bridge handle ≠ none → handle.Within state.1.world.size

section Runs

variable {before after : Machine × Lives}

theorem standing_start (setting : Setting) : Standing (start setting, .nobody) where
  idle := rfl
  sheltered := ⟨calm_start setting, fun _ => .start setting⟩
  known := fun _ _ listed => absurd rfl listed

theorem Standing.persists (standing : Standing before) (served : Served before after) :
    World.Persists before.1.world after.1.world := by
  cases served with
  | request offered known completes =>
      exact (standing.sheltered.completed standing.idle offered known completes).2.2

theorem Standing.served (standing : Standing before) (served : Served before after) :
    Standing after := by
  have grows := (standing.persists served).size
  cases served with
  | request offered known completes =>
      obtain ⟨idle, sheltered, -⟩ :=
        standing.sheltered.completed standing.idle offered known completes
      refine ⟨idle, sheltered, ?_⟩
      intro bridge handle listed
      rcases Lives.old_or_returned listed with old | ⟨call, asks, construct, returned⟩
      · exact (standing.known bridge handle old).mono grows
      · exact (returned_of_construct standing.sheltered standing.idle offered known completes asks
          construct returned).2.2

theorem Standing.finalized (standing : Standing before) {bridge : BridgeId} {handle : Value}
    (gone : before.2 bridge handle = some .finalized)
    (history : Relation.ReflTransGen Served before after) :
    after.2 bridge handle = some .finalized := by
  have both : Standing after ∧ after.2 bridge handle = some .finalized := by
    induction history with
    | refl => exact ⟨standing, gone⟩
    | @tail middle _ _ served induction =>
        obtain ⟨stands, finalized⟩ := induction
        refine ⟨stands.served served, ?_⟩
        cases served with
        | request offered known completes =>
            apply Lives.finalized_of_finalized finalized
            intro call asks construct returned
            have fresh := (returned_of_construct stands.sheltered stands.idle offered known
              completes asks construct returned).2.1
            exact absurd (stands.known bridge handle (by simp [finalized])) fresh
  exact both.2

theorem standing_of_history (setting : Setting)
    (history : Relation.ReflTransGen Served (start setting, .nobody) after) :
    Standing after ∧ (after.1.world.Roomy → ∀ bridge handle,
      after.1.world.life bridge handle = after.2.of bridge handle) := by
  induction history with
  | refl =>
      refine ⟨standing_start setting, ?_⟩
      intro _ bridge handle
      have missing : (World.start setting).bridge? bridge = none := by
        simp [World.start, World.bridge?]
      exact World.life_of_missing missing handle
  | @tail middle _ _ served induction =>
      obtain ⟨stands, agree⟩ := induction
      refine ⟨stands.served served, ?_⟩
      intro room
      have early := agree ((stands.persists served).roomy room)
      cases served with
      | request offered known completes =>
          exact life_of_completes stands.sheltered stands.idle early offered known completes room

end Runs

/-- Bridges keep the lives of their handles, whatever clients ask for short of writing slots:
calls are answered as by a machine with a single slot for each handle, which a construction
makes empty, which calls of its own fill and empty, and which ends for ever when the handle is
finalized or its object is reclaimed. Here too 32 bits have to number the slots of every
table. -/
theorem faithful_of_history {setting : Setting} {machine : Machine} {lives : Lives}
    (history : Relation.ReflTransGen Served (start setting, .nobody) (machine, lives))
    (room : machine.world.Roomy) : machine.Faithful lives := by
  obtain ⟨standing, agree⟩ := standing_of_history setting history
  have sheltered := standing.sheltered
  refine ⟨agree room, ?_, ?_, ?_, ?_⟩
  · intro label command keep offered
    obtain ⟨ended, completes, -⟩ := sheltered.calm.completes standing.idle offered label keep
    exact ⟨ended, completes⟩
  · intro label command keep ended call result offered known completes asks expected
    have coherent := sheltered.coherent room
    have performed : machine.world.perform machine.read command = machine.world.place call :=
      World.perform_request coherent.tidy.running (by rw [asks]; rfl)
    have same : machine.world.result? call = some result := by
      rw [← expected]
      unfold World.result? Lives.expected
      rw [agree room]
    have obeys := World.obeys_place coherent.paired same
    rw [← performed] at obeys
    exact reply_of_promising sheltered standing.idle offered known completes obeys.answers
  · intro label command keep ended call handle offered known completes asks construct returned
    obtain ⟨alive, fresh, -⟩ := returned_of_construct sheltered standing.idle offered known
      completes asks construct returned
    refine ⟨?_, Lives.after_construct asks construct returned alive⟩
    intro bridge
    by_contra listed
    exact fresh (standing.known bridge handle listed)
  · intro bridge handle later gone continued
    exact standing.finalized gone continued

def connectedSignal : Machine :=
  runAll 20 (start .immediate)
    [.act "install" (.bridge (.install "signals" {})) none,
      .act "function" (.object (.createFunction "callback")) (some "callback"),
      .act "construct" (.bridge (.enter "signals" .construct (.literal .undefined) []))
        (some "signal"),
      .act "connect"
        (.bridge (.enter "signals" .connect (.register "signal") [.register "callback"])) none]

theorem history_of_request {setting : Setting} {machine ended : Machine} {lives : Lives}
    (history : Relation.ReflTransGen Served (start setting, .nobody) (machine, lives))
    (label : String) (command : Command) (keep : Option String) (fuel : Nat)
    (offered : command.Offered) (known : (Step.act label command keep).Known machine.world)
    (ran : (machine.submit (.act label command keep)).run fuel = ended)
    (idle : ended.agenda = []) :
    Relation.ReflTransGen Served (start setting, .nobody)
      (ended, lives.after machine command ended) :=
  history.tail (.request offered known ⟨fuel, ran, idle⟩)

theorem history_of_connected_signal : ∃ lives,
    Relation.ReflTransGen Served (start .immediate, .nobody) (connectedSignal, lives) ∧
      lives ⟨0⟩ (.object ⟨2⟩) = some (.connected false (.object ⟨1⟩)) := by
  have begun : Relation.ReflTransGen Served (start .immediate, .nobody)
      (start .immediate, .nobody) := .refl
  have installed := history_of_request begun "install" (.bridge (.install "signals" {})) none 20
    trivial (Step.known_of_no_objects _ rfl) rfl rfl
  have created := history_of_request installed "function" (.object (.createFunction "callback"))
    (some "callback") 20 trivial (Step.known_of_no_objects _ rfl) rfl rfl
  have constructed := history_of_request created "construct"
    (.bridge (.enter "signals" .construct (.literal .undefined) [])) (some "signal") 20
    trivial (Step.known_of_no_objects _ rfl) rfl rfl
  have connected := history_of_request constructed "connect"
    (.bridge (.enter "signals" .connect (.register "signal") [.register "callback"])) none 20
    trivial (Step.known_of_no_objects _ rfl) rfl rfl
  exact ⟨_, connected, rfl⟩

theorem faithful_of_connected_signal : ∃ lives, connectedSignal.Faithful lives ∧
    lives ⟨0⟩ (.object ⟨2⟩) = some (.connected false (.object ⟨1⟩)) := by
  obtain ⟨lives, history, life⟩ := history_of_connected_signal
  refine ⟨lives, faithful_of_history history ?_, life⟩
  intro id bridge found
  cases World.bridge_of_single rfl found
  cases found
  decide

end Machine

end ScriptSignal
