import ScriptSignal.Proofs.Answering
import ScriptSignal.Proofs.Collections
import ScriptSignal.Proofs.Reflections
import ScriptSignal.Proofs.Waste

/-!
# One request in both modes

Two machines serve the same client, one that reclaims objects at once and one where they wait.
Between two requests the world of the first mirrors that of the second. A request begins alike
in both. From there on the two have little in common: the one runs through a cascade, and the
other lowers some counts. But each comes to an end that follows from where it began, so in the
end the worlds are mirrors again.
-/

namespace ScriptSignal

set_option autoImplicit false

namespace Machine

structure Underway (machine ended : Machine) (owned : List Value) (owning : Bool) : Prop where
  sheltered : machine.Sheltered
  settling : machine.Settling owned owning
  ran : ∃ fuel, machine.run fuel = ended
  idle : ended.agenda = []
  room : ended.world.Roomy

def Answerable (machine : Machine) (reply : Reply) : Prop :=
  ∃ early late label, machine.agenda = early ++ .answer reply :: (late ++ [.finish label]) ∧
    ∀ task ∈ early ++ late, task.GivesBack

section Requests

variable {machine ended : Machine} {owned : List Value} {owning : Bool} {label : String}
  {command : Command} {keep : Option String} {reply : Reply}

theorem Ledgered.sheltered (ledgered : Ledgered machine owned) : machine.Sheltered :=
  ⟨ledgered.settled.2.calm, ledgered.reachable⟩

theorem Underway.begin (ledgered : Ledgered machine owned) (honest : machine.Honest owned command)
    (completes : machine.Completes (.act label command keep) ended) (room : ended.world.Roomy) :
    (machine.submit (.act label command keep)).step.Underway ended
      (owned.diff (command.given machine.read)) command.owning := by
  obtain ⟨idle, settling⟩ := ledgered.settled
  obtain ⟨fuel, ran, finished⟩ := run_of_completes completes
  refine ⟨?_, settling.begin idle honest, ⟨fuel, ran⟩, finished, room⟩
  exact ledgered.sheltered.begin idle honest.offered (known_of_honest honest label keep)

theorem Underway.step (underway : machine.Underway ended owned owning)
    (busy : machine.agenda ≠ []) :
    machine.step.Underway ended owned owning := by
  obtain ⟨fuel, ran⟩ := underway.ran
  exact ⟨underway.sheltered.step, underway.settling.step, run_of_busy ran underway.idle busy,
    underway.idle, underway.room⟩

theorem Underway.roomy (underway : machine.Underway ended owned owning) : machine.world.Roomy := by
  obtain ⟨fuel, ran⟩ := underway.ran
  have persists := underway.sheltered.persists_run fuel
  rw [ran] at persists
  exact persists.roomy underway.room

theorem Underway.paired (underway : machine.Underway ended owned owning) : machine.world.Paired :=
  (underway.sheltered.coherent underway.roomy).paired

theorem Underway.settled (underway : machine.Underway ended owned owning) :
    ended.Settling owned owning := by
  obtain ⟨fuel, ran⟩ := underway.ran
  have settling := underway.settling.run fuel
  rw [ran] at settling
  exact settling

theorem Underway.mode (underway : machine.Underway ended owned owning) :
    ended.world.engine.mode = machine.world.engine.mode := by
  obtain ⟨fuel, ran⟩ := underway.ran
  rw [← ran]
  exact underway.settling.calm.mode_run fuel

theorem Answerable.mild (answerable : machine.Answerable reply) :
    ∀ task ∈ machine.agenda, task.Mild := by
  obtain ⟨early, late, label, agenda, gives⟩ := answerable
  intro task member
  simp only [agenda, List.mem_append, List.mem_cons, List.not_mem_nil, or_false] at member
  rcases member with listed | rfl | listed | rfl
  · exact .inl (gives task (List.mem_append_left _ listed)).follows
  · exact .inl trivial
  · exact .inl (gives task (List.mem_append_right _ listed)).follows
  · exact .inr ⟨label, rfl⟩

theorem Underway.answers (underway : machine.Underway ended owned owning)
    (answerable : machine.Answerable reply) :
    ended.world.client = machine.world.client.keeping machine.frame.keep reply.values ∧
      ended.frame = { machine.frame with reply } := by
  obtain ⟨early, late, label, agenda, gives⟩ := answerable
  have silent : ∀ task ∈ early ++ (late ++ [.finish label]), task.Silent := by
    intro task member
    rw [← List.append_assoc] at member
    rcases List.mem_append.1 member with listed | last
    · have giving := gives task listed
      cases task <;> trivial
    · cases List.mem_singleton.1 last
      trivial
  obtain ⟨fuel, ran⟩ := underway.ran
  exact (Keeping.waiting agenda silent rfl rfl).ended underway.settling.calm ran underway.idle

theorem Underway.lowered (underway : machine.Underway ended owned owning)
    (answerable : machine.Answerable reply) (mode : machine.world.engine.mode = .deferred) :
    World.Lowered machine.world ended.world fun id => machine.carried.count (.object id) := by
  obtain ⟨fuel, ran⟩ := underway.ran
  exact lowered_of_deferred underway.settling.calm mode answerable.mild ran underway.idle

/-- Where objects are reclaimed at once, a cascade takes the garbage. -/
theorem Underway.swept (underway : machine.Underway ended owned owning)
    (answerable : machine.Answerable reply) (mode : machine.world.engine.mode = .immediate) :
    ∃ dead, machine.world.Swept machine.carried dead ended.world := by
  have settling := underway.settling
  obtain ⟨fuel, ran⟩ := underway.ran
  have mild := fun task member => (answerable.mild task member).plain
  apply swept_of_run ⟨settling.calm, settling.awaited, settling.prompt⟩ underway.paired
    (fun task member => (mild task member).2.2)
    (fun id member => (mild _ member).2.1 id rfl) ran underway.idle
  exact underway.settled.prompt (underway.mode.trans mode)

/-- Where objects are reclaimed at once, none is without references at the beginning. -/
theorem Underway.unspent (underway : machine.Underway ended owned owning)
    (answerable : machine.Answerable reply) (mode : machine.world.engine.mode = .immediate)
    (id : ObjectId) : ¬machine.world.Spent id := by
  intro spent
  have mild := fun task member => (answerable.mild task member).plain
  rcases underway.settling.awaited id spent with listed | listed | waiting
  · exact (mild _ listed).1 id rfl
  · exact (mild _ listed).2.1 id rfl
  · rw [underway.settling.prompt mode] at waiting
    cases waiting

theorem frame_submit (idle : machine.agenda = []) (offered : command.Offered) :
    (machine.submit (.act label command keep)).step.frame = { machine.frame with keep } := by
  have shape : (machine.submit (.act label command keep)).agenda =
      [.perform (.act label command keep)] := by
    simp [submit, idle]
  have allowed := allowed_of_offered machine offered
  have begun : (Machine.begin { machine.submit (.act label command keep) with agenda := [] }
      label keep).isAllowed command = true := by
    cases command <;> exact allowed
  rw [step_of_cons shape]
  simp only [carryOut, perform, begun, if_true]
  rfl

/-- A collection removes the garbage. The client keeps its names, since the answer is no
value. -/
theorem Ledgered.collected (ledgered : Ledgered machine owned) (room : machine.world.Roomy)
    (completes : machine.Completes (.act label (.object .collect) keep) ended) :
    (∃ dead, machine.world.Swept [] dead ended.world) ∧
      ended.world.client = machine.world.client ∧
      ∃ reply, ended.frame = { machine.frame with keep, reply } ∧ reply.values = [] := by
  obtain ⟨idle, attended⟩ := ledgered.visited.attended
  obtain ⟨dead, swept, answered⟩ := attended.swept_collect idle (ledgered.paired room) completes
  obtain ⟨fuel, ran, -⟩ := run_of_completes completes
  obtain ⟨world, early, drains, agenda⟩ := @begin_collect machine label keep attended.calm.tidy idle
  have offered : (Command.object .collect).Offered := trivial
  have collecting : (machine.submit (.act label (.object .collect) keep)).step.Collecting
      machine.world.client { machine.frame with keep } := by
    refine ⟨?_, by rw [world], machine.frame.reply, frame_submit idle offered⟩
    intro task member
    simp only [agenda, List.mem_append, List.mem_cons, List.not_mem_nil, or_false] at member
    rcases member with first | rfl | rfl
    · rw [drains task first]
      trivial
    · trivial
    · trivial
  obtain ⟨-, client, reply, framed⟩ := collecting.run (attended.calm.begin idle offered) fuel
  rw [ran] at client framed
  refine ⟨⟨dead, swept⟩, client, reply, framed, ?_⟩
  have same : ended.frame.reply = reply := by rw [framed]
  rw [← same, answered]
  rfl

end Requests

structure Paused (before : World) (waste : Finset ObjectId) (discreet : Prop)
    (deferred immediate : Machine) (reply mirrored : Reply) : Prop where
  mirrors : World.Mirrors before waste deferred.world immediate.world
  answerable : deferred.Answerable reply
  also : immediate.Answerable mirrored
  carried : immediate.carried = deferred.carried
  values : mirrored.values = reply.values
  same : discreet → mirrored = reply

section Pairs

variable {before : World} {waste : Finset ObjectId} {discreet : Prop}
  {deferred immediate ended mirror : Machine} {owned ledger : List Value} {owning : Bool}
  {reply mirrored : Reply} {label : String}

theorem answerable_of_agenda {machine : Machine} {early late : List Task}
    (agenda : machine.agenda = (early ++ .answer reply :: late) ++ [.finish label])
    (gives : ∀ task ∈ early ++ late, task.GivesBack) :
    machine.Answerable reply ∧ machine.carried = (early ++ late).flatMap Task.carried := by
  refine ⟨⟨early, late, label, by rw [agenda]; simp, gives⟩, ?_⟩
  simp [carried, agenda, Task.carried]

/-- A construction gives back a reference that is not the last one, and then binds its
handle. -/
theorem Underway.bind {machine : Machine} {proto handle : Value} {id : BridgeId} {route : Route}
    {link : Option StrongRef} {rest : List Task}
    (underway : machine.Underway ended owned owning)
    (agenda : machine.agenda = .release proto :: .bind id route handle link :: rest) :
    (∀ object, machine.world.object? proto = some object → 2 ≤ object.refCount) ∧
      (machine.world.release proto).1.Awaits id handle ∧
      (machine.world.release proto).1.Paired ∧
      ∃ later : Machine, later.Underway ended owned owning ∧ later.frame = machine.frame ∧
        later.world = ((machine.world.release proto).1.bindSignal id route handle link).1 ∧
        later.agenda = .answer (route.reply (.ok handle)) :: rest := by
  have busy : machine.agenda ≠ [] := by simp [agenda]
  have counted : ∀ object, machine.world.object? proto = some object → 2 ≤ object.refCount := by
    have poised := (underway.sheltered.orderly default).poised
    rw [agenda] at poised
    cases poised with
    | idle free => exact absurd trivial (free (.bind id route handle link) (by simp))
    | release counted awaits spared free => exact counted
  obtain ⟨world, next, frame⟩ := step_of_native agenda trivial (by simp)
  have released : (machine.world.handle (.release proto)).2 = [] :=
    World.release_of_counted counted
  rw [released, List.nil_append] at next
  have once := underway.step busy
  have awaits : machine.step.world.Awaits id handle := by
    have poised := (once.sheltered.orderly default).poised
    rw [next] at poised
    exact poised.awaits
  obtain ⟨worldNext, last, frameNext⟩ := step_of_native next trivial (by simp)
  have twice := once.step (by simp [next])
  have same : machine.step.world = (machine.world.release proto).1 := world
  rw [same] at awaits worldNext last
  refine ⟨counted, awaits, ?_, machine.step.step, twice, frameNext.trans frame, worldNext, ?_⟩
  · rw [← same]
    exact once.paired
  · obtain ⟨bridge, found, -⟩ := awaits
    rw [last]
    simp only [World.handle, World.bind_signal_eq found]
    rfl

/-- Two requests that begin alike come to a point from which on all that is left is to give
references back and to answer. -/
theorem Underway.pause {tasks others : List Task}
    (left : deferred.Underway ended owned owning) (right : immediate.Underway mirror ledger owning)
    (mirrored : Outcome.Mirrored before waste discreet (deferred.world, tasks)
      (immediate.world, others))
    (agenda : deferred.agenda = tasks ++ [.finish label])
    (mirroredAgenda : immediate.agenda = others ++ [.finish label]) :
    ∃ one other : Machine, ∃ reply answer, one.Underway ended owned owning ∧
      other.Underway mirror ledger owning ∧ one.frame = deferred.frame ∧
      other.frame = immediate.frame ∧ Paused before waste discreet one other reply answer := by
  generalize shape : (deferred.world, tasks) = outcome at mirrored
  generalize mirroredShape : (immediate.world, others) = mirroredOutcome at mirrored
  cases mirrored with
  | @answers _ _ early late first last reply answer mirrors gives also carried values same =>
      cases shape
      cases mirroredShape
      obtain ⟨answerable, here⟩ := answerable_of_agenda agenda gives
      obtain ⟨mirroredAnswerable, there⟩ := answerable_of_agenda mirroredAgenda also
      refine ⟨deferred, immediate, reply, answer, left, right, rfl, rfl, ?_⟩
      exact ⟨mirrors, answerable, mirroredAnswerable, by rw [here, there, carried], values, same⟩
  | @binds _ _ proto handle id route link late mirrors outside fresh gives =>
      cases shape
      cases mirroredShape
      obtain ⟨-, awaits, paired, one, underway, frame, world, next⟩ := left.bind agenda
      obtain ⟨counted, mirroredAwaits, also, other, mirroredUnderway, mirroredFrame, mirroredWorld,
        mirroredNext⟩ := right.bind mirroredAgenda
      have room := underway.roomy
      have mirroredRoom := mirroredUnderway.roomy
      rw [world] at room
      rw [mirroredWorld] at mirroredRoom
      have bound := (mirrors.release outside counted).bind paired also fresh awaits mirroredAwaits
        room mirroredRoom
      rw [← world, ← mirroredWorld] at bound
      have alone : ∀ task ∈ [] ++ late, task.GivesBack := gives
      obtain ⟨answerable, here⟩ :=
        @answerable_of_agenda (route.reply (.ok handle)) label one [] late
        next alone
      obtain ⟨mirroredAnswerable, there⟩ := @answerable_of_agenda (route.reply (.ok handle)) label
        other [] late mirroredNext alone
      refine ⟨one, other, route.reply (.ok handle), route.reply (.ok handle), underway,
        mirroredUnderway, frame, mirroredFrame, ?_⟩
      exact ⟨bound, answerable, mirroredAnswerable, by rw [here, there], rfl, fun _ => rfl⟩

/-- From there on the worlds go separate ways, and are mirrors again in the end. -/
theorem Underway.reflects (left : deferred.Underway ended owned owning)
    (right : immediate.Underway mirror ledger owning)
    (mode : deferred.world.engine.mode = .deferred)
    (mirroredMode : immediate.world.engine.mode = .immediate)
    (keep : immediate.frame.keep = deferred.frame.keep)
    (garbage : before.graph.Garbage (fun _ => 0) waste) (paired : before.Paired)
    (paused : Paused before waste discreet deferred immediate reply mirrored) :
    ∃ all, ended.world.Reflects mirror.world all := by
  obtain ⟨mirrors, answerable, also, carried, values, -⟩ := paused
  have unspent := right.unspent also mirroredMode
  have reflects := mirrors.reflects garbage paired left.paired unspent
  obtain ⟨dead, swept⟩ := right.swept also mirroredMode
  rw [carried] at swept
  refine ⟨_, reflects.sweep left.paired right.paired (left.lowered answerable mode) ?_ swept
    left.settled.covered ?_⟩
  · intro id
    have balance := left.settling.balance id
    unfold World.surplus at balance
    omega
  · rw [(right.answers also).1, (left.answers answerable).1, mirrors.client, keep, values]

end Pairs

end Machine

end ScriptSignal
