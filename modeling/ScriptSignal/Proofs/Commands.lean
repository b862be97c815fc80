import ScriptSignal.Proofs.Constructions
import ScriptSignal.Proofs.Finalizations

/-!
# A command from its step to its end

A command may be given by the client or by a script in the middle of its body, so that any work
waits behind it. It ends once its own tasks are done and that work is next. Where a command is
done in one piece, its end is known in advance.
-/

namespace ScriptSignal

set_option autoImplicit false

namespace Machine

/-- The machines that come about while clients and scripts do as they like, except that they
know no handle before its object was allocated. -/
inductive Informed : Machine → Prop
  | start (setting : Setting) : Informed (start setting)
  | submit {machine : Machine} {step : Step} (informed : Informed machine)
      (idle : machine.agenda = []) (known : step.Known machine.world) :
      Informed (machine.submit step)
  | step {machine : Machine} (informed : Informed machine) : Informed machine.step

section Informed

variable {machine later : Machine} {rest : List Task}

theorem Informed.attained (informed : machine.Informed) : machine.Attained := by
  induction informed with
  | start setting => exact attained_start setting
  | submit _ idle _ induction => exact induction.submit idle _
  | step _ induction => exact induction.step

theorem Attained.running_of_step (attained : machine.Attained)
    (running : machine.step.world.engine.running = true) :
    machine.world.engine.running = true := by
  cases runs : machine.world.engine.running with
  | true => rfl
  | false =>
      rw [attained.kept.engine_step runs, runs] at running
      cases running

theorem Informed.grounded (informed : machine.Informed)
    (running : machine.world.engine.running = true) : machine.Grounded := by
  induction informed with
  | start setting => exact grounded_start setting
  | submit _ _ known induction => exact (induction running).submit known
  | step informed induction =>
      exact (induction (informed.attained.running_of_step running)).step running

theorem Reachable.informed {classId : ClassId} (reached : Reachable classId machine) :
    machine.Informed := by
  induction reached with
  | start setting => exact .start setting
  | submit _ idle known induction => exact induction.submit idle known
  | step _ _ _ induction => exact induction.step

end Informed

/-- Machines that differ in the rest of their agendas alone, which work was put before. -/
def Heedless (result : List Task → Machine) : Prop :=
  ∃ (tasks : List Task) (after : Machine), ∀ rest,
    result rest = { after with agenda := tasks ++ rest }

section Heedless

variable {result : List Task → Machine}

theorem heedless_self (machine : Machine) :
    Heedless fun rest => { machine with agenda := rest } := ⟨[], machine, fun _ => rfl⟩

theorem Heedless.act (heedless : Heedless result) (operation : World → Outcome) :
    Heedless fun rest => (result rest).act operation := by
  obtain ⟨tasks, after, same⟩ := heedless
  refine ⟨(operation after.world).2 ++ tasks,
    { after with world := (operation after.world).1 }, fun rest => ?_⟩
  simp only [same, Machine.act, List.append_assoc]

theorem Heedless.schedule (heedless : Heedless result) (more : List Task) :
    Heedless fun rest => (result rest).schedule more := by
  obtain ⟨tasks, after, same⟩ := heedless
  refine ⟨more ++ tasks, after, fun rest => ?_⟩
  simp only [same, Machine.schedule, List.append_assoc]

theorem Heedless.begin (heedless : Heedless result) (label : String) (keep : Option String) :
    Heedless fun rest => (result rest).begin label keep := by
  obtain ⟨tasks, after, same⟩ := heedless
  refine ⟨.finish label :: tasks, { after with frame.keep := keep }, fun rest => ?_⟩
  simp only [same]
  rfl

theorem Heedless.answer (heedless : Heedless result) (reply : Reply) :
    Heedless fun rest => (result rest).answer reply := by
  obtain ⟨tasks, after, same⟩ := heedless
  refine ⟨tasks, after.answer reply, fun rest => ?_⟩
  simp only [same]
  unfold Machine.answer
  dsimp only
  split <;> rfl

theorem heedless_enter (machine : Machine) (body : Body) (receiver : Value)
    (arguments : List Value) (purpose : Purpose) :
    Heedless fun rest => { machine with agenda := rest }.enter body receiver arguments purpose := by
  unfold Machine.enter
  by_cases within : machine.depth < machine.limit
  · have scheduled := (heedless_self { machine with
      frame := ⟨receiver, arguments, none, .nothing⟩
      callers := machine.frame :: machine.callers }).schedule
        (body.steps.map Task.perform ++ [.leave body purpose])
    have same : ∀ rest, ({ machine with agenda := rest } : Machine).depth < machine.limit :=
      fun _ => within
    simp only [if_pos (same _)]
    exact scheduled
  · have same : ∀ rest, ¬({ machine with agenda := rest } : Machine).depth < machine.limit :=
      fun _ => within
    cases purpose with
    | call =>
        simp only [if_neg (same _)]
        exact (heedless_self machine).answer (.value .undefined)
    | finalize =>
        simp only [if_neg (same _)]
        exact heedless_self machine

theorem heedless_leave (machine : Machine) (body : Body) (purpose : Purpose) :
    Heedless fun rest => { machine with agenda := rest }.leave body purpose := by
  obtain ⟨world, agenda, frame, callers, muted, records, reported, limit⟩ := machine
  cases callers with
  | nil => exact heedless_self ⟨world, agenda, frame, [], muted, records, reported, limit⟩
  | cons caller callers =>
      let machine : Machine :=
        ⟨world, agenda, frame, caller :: callers, muted, records, reported, limit⟩
      have returned := heedless_self { machine with frame := caller, callers }
      cases purpose with
      | call => exact returned.answer (machine.result body)
      | finalize => exact returned

theorem heedless_perform (machine : Machine) (step : Step) :
    Heedless fun rest => { machine with agenda := rest }.perform step := by
  have begun := fun label keep => (heedless_self machine).begin label keep
  cases step with
  | act label command keep =>
      have same : ∀ rest, ({ machine with agenda := rest }.begin label keep).isAllowed command =
          machine.isAllowed command := by
        intro rest
        cases command <;> rfl
      cases allowed : machine.isAllowed command with
      | true =>
          simp only [perform, same, allowed, if_true]
          exact (begun label keep).act fun world => world.perform machine.read command
      | false =>
          simp only [perform, same, allowed, Bool.false_eq_true, if_false]
          exact (begun label keep).schedule [.answer (.refused .badStep)]
  | define label classId name constructor methods finalizer =>
      exact (begun label none).act fun world =>
        world.defineScripted classId name constructor methods finalizer
  | iterate label times steps =>
      have muted := (heedless_self { machine with muted := machine.muted + 1 }).begin label none
      exact muted.schedule [.iterate times steps, .answer .nothing]
  | unknown label => exact (begun label none).schedule [.answer (.refused .badStep)]

/-- A task puts work before the rest of the agenda, and does not look at it. -/
theorem heedless_carry_out (machine : Machine) (task : Task) :
    Heedless fun rest => { machine with agenda := rest }.carryOut task := by
  have self := heedless_self machine
  cases task with
  | answer reply => exact self.answer reply
  | enter body receiver arguments purpose =>
      exact heedless_enter machine body receiver arguments purpose
  | leave body purpose => exact heedless_leave machine body purpose
  | perform step => exact heedless_perform machine step
  | finish label =>
      refine ⟨[], machine.record label, fun rest => ?_⟩
      simp only [carryOut, record]
      split <;> rfl
  | iterate times steps =>
      cases times with
      | zero => exact ⟨[], { machine with muted := machine.muted - 1 }, fun _ => rfl⟩
      | succ times => exact self.schedule (steps.map Task.perform ++ [.iterate times steps])
  | release value => exact self.act fun world => world.release value
  | drop held => exact self.act fun world => world.dropReference held
  | reclaim id => exact self.act fun world => world.reclaim id
  | remove id => exact self.act fun world => world.removeObject id
  | drain count => exact self.act fun world => world.drain count
  | reportCollection finalizedBefore =>
      exact self.act fun world => world.reportCollection finalizedBefore
  | report event => exact self.act fun world => (world.emit event, [])
  | bind bridge route handle link =>
      exact self.act fun world => world.bindSignal bridge route handle link
  | endCall bridge => exact self.act fun world => world.endCall bridge
  | settle bridge => exact self.act fun world => world.settleBridge bridge

theorem agenda_of_step {machine : Machine} {rest : List Task} {task : Task}
    (shape : machine.agenda = task :: rest) : ∃ tasks, machine.step.agenda = tasks ++ rest := by
  obtain ⟨tasks, after, same⟩ := heedless_carry_out machine task
  exact ⟨tasks, by rw [step_of_cons shape]; exact congrArg agenda (same rest)⟩

end Heedless

/-- All that waited before the rest of an agenda has been done by now. -/
structure Finishes (rest : List Task) (machine later : Machine) : Prop where
  inside : Inside rest machine later
  agenda : later.agenda = rest

section Finishes

variable {machine later other : Machine} {rest front : List Task} {task : Task}

theorem Inside.head (shape : machine.agenda = task :: (front ++ rest))
    (inside : Inside rest machine.step later) : Inside rest machine later := by
  induction inside with
  | refl => exact .step .refl shape
  | step _ here induction => exact induction.step here

theorem Inside.tail (inside : Inside rest machine later) :
    later = machine ∨ Inside rest machine.step later := by
  induction inside with
  | refl => exact .inl rfl
  | @step before task front inside shape induction =>
      rcases induction with rfl | onward
      · exact .inr .refl
      · exact .inr (onward.step shape)

theorem Inside.reached (inside : Inside rest machine later) :
    ∃ fuel, machine.run fuel = later := by
  induction inside with
  | refl => exact ⟨0, rfl⟩
  | @step before task front inside shape induction =>
      obtain ⟨fuel, same⟩ := induction
      refine ⟨fuel + 1, ?_⟩
      rw [run_add, same]
      simp [run, shape]

theorem finishes_refl (agenda : machine.agenda = rest) : Finishes rest machine machine :=
  ⟨.refl, agenda⟩

theorem Finishes.head (front : List Task) (shape : machine.agenda = task :: (front ++ rest))
    (finishes : Finishes rest machine.step later) : Finishes rest machine later :=
  ⟨finishes.inside.head shape, finishes.agenda⟩

theorem ne_of_longer (shape : machine.agenda = task :: (front ++ rest)) :
    machine.agenda ≠ rest := by
  intro same
  have lengths := congrArg List.length (shape.symm.trans same)
  simp at lengths
  omega

theorem Finishes.step (finishes : Finishes rest machine later)
    (shape : machine.agenda = task :: (front ++ rest)) : Finishes rest machine.step later := by
  rcases finishes.inside.tail with rfl | onward
  · exact absurd finishes.agenda (ne_of_longer shape)
  · exact ⟨onward, finishes.agenda⟩

theorem Finishes.eq_self (finishes : Finishes rest machine later)
    (agenda : machine.agenda = rest) : later = machine := by
  obtain ⟨inside, -⟩ := finishes
  induction inside with
  | refl => rfl
  | @step before task front inside shape induction =>
      rw [induction] at shape
      exact absurd agenda (ne_of_longer shape)

theorem Finishes.unique (finishes : Finishes rest machine later)
    (also : Finishes rest machine other) : later = other := by
  obtain ⟨inside, agenda⟩ := also
  induction inside with
  | refl => exact finishes.eq_self agenda
  | @step before task front inside shape induction =>
      clear induction
      have whole : ∀ {middle : Machine}, Inside rest machine middle →
          Finishes rest middle later := by
        intro middle reached
        induction reached with
        | refl => exact finishes
        | step _ here induction => exact induction.step here
      exact (whole (inside.step shape)).eq_self agenda

/-- The end of all is the end of what comes after the first part. -/
theorem Finishes.trans {first : List Task} {middle : Machine}
    (finishes : Finishes (first ++ rest) machine middle) (onward : Finishes rest middle later) :
    Finishes rest machine later := by
  obtain ⟨inside, agenda⟩ := finishes
  clear agenda
  induction inside with
  | refl => exact onward
  | @step before task front inside shape induction =>
      exact induction (onward.head (front ++ first) (by rw [shape, List.append_assoc]))

theorem Inside.waits (inside : Inside rest machine later)
    (shape : machine.agenda = front ++ rest) : ∃ front, later.agenda = front ++ rest := by
  induction inside with
  | refl => exact ⟨front, shape⟩
  | step _ here _ =>
      obtain ⟨tasks, agenda⟩ := agenda_of_step here
      exact ⟨_, agenda.trans (List.append_assoc _ _ _).symm⟩

/-- Before the rest is next, what waits right before it has been next. -/
theorem Inside.split {first : List Task} (inside : Inside rest machine later)
    (shape : machine.agenda = front ++ (first ++ rest)) :
    Inside (first ++ rest) machine later ∨
      ∃ middle, Finishes (first ++ rest) machine middle ∧ Inside rest middle later := by
  induction inside with
  | refl => exact .inl .refl
  | @step before task ahead inside here induction =>
      rcases induction with early | ⟨middle, finishes, onward⟩
      · obtain ⟨waiting, agenda⟩ := early.waits shape
        cases waiting with
        | nil => exact .inr ⟨before, ⟨early, agenda⟩, .step .refl here⟩
        | cons next waiting => exact .inl (early.step agenda)
      · exact .inr ⟨middle, finishes, onward.step here⟩

theorem Finishes.split {first : List Task} (finishes : Finishes rest machine later)
    (shape : machine.agenda = front ++ (first ++ rest)) :
    ∃ middle, Finishes (first ++ rest) machine middle ∧ Finishes rest middle later := by
  rcases finishes.inside.split shape with early | ⟨middle, earlier, onward⟩
  · obtain ⟨waiting, agenda⟩ := early.waits shape
    have nothing : waiting = [] ∧ first = [] := by
      have lengths := congrArg List.length (agenda.symm.trans finishes.agenda)
      simp only [List.length_append] at lengths
      exact ⟨List.length_eq_zero_iff.1 (by omega), List.length_eq_zero_iff.1 (by omega)⟩
    obtain ⟨rfl, rfl⟩ := nothing
    exact ⟨later, ⟨early, agenda⟩, finishes_refl finishes.agenda⟩
  · exact ⟨middle, earlier, onward, finishes.agenda⟩

/-- What is done before the rest is the same whatever the rest is. -/
theorem Inside.instead (inside : Inside rest machine later) (shape : machine.agenda = front ++ rest)
    (others : List Task) : ∃ waiting, later.agenda = waiting ++ rest ∧
      Inside others { machine with agenda := front ++ others }
        { later with agenda := waiting ++ others } := by
  induction inside with
  | refl => exact ⟨front, shape, .refl⟩
  | @step before task ahead inside here induction =>
      obtain ⟨waiting, agenda, induction⟩ := induction
      have same : waiting = task :: ahead := List.append_cancel_right (agenda.symm.trans here)
      subst same
      obtain ⟨tasks, after, heedless⟩ := heedless_carry_out before task
      have stepped : before.step = { after with agenda := tasks ++ (ahead ++ rest) } := by
        rw [step_of_cons here]
        exact heedless (ahead ++ rest)
      refine ⟨tasks ++ ahead, by rw [stepped, List.append_assoc], ?_⟩
      have onward := induction.step rfl
      have alike : ({ before with agenda := task :: ahead ++ others } : Machine).step =
          { after with agenda := tasks ++ (ahead ++ others) } := heedless (ahead ++ others)
      rw [alike, ← List.append_assoc] at onward
      rw [stepped]
      exact onward

theorem Finishes.instead (finishes : Finishes rest machine later)
    (shape : machine.agenda = front ++ rest) (others : List Task) :
    Finishes others { machine with agenda := front ++ others }
      { later with agenda := others } := by
  obtain ⟨waiting, agenda, inside⟩ := finishes.inside.instead shape others
  have nothing : waiting = [] := by
    have lengths := congrArg List.length (agenda.symm.trans finishes.agenda)
    simp only [List.length_append] at lengths
    exact List.length_eq_zero_iff.1 (by omega)
  subst nothing
  exact ⟨inside, rfl⟩

end Finishes

section Steps

variable {machine : Machine} {rest : List Task} {label : String} {command : Command}
  {keep : Option String}

/-- The step of a command leaves what the command leaves, and is listed in the end. -/
theorem step_act_eq (shape : machine.agenda = .perform (.act label command keep) :: rest)
    (allowed : machine.isAllowed command = true) :
    machine.step =
      { machine with
        world := (machine.world.perform machine.read command).1
        agenda := (machine.world.perform machine.read command).2 ++ .finish label :: rest
        frame.keep := keep } := by
  have begun : (Machine.begin { machine with agenda := rest } label keep).isAllowed command
      = true := by
    cases command <;> exact allowed
  rw [step_of_cons shape]
  simp only [carryOut, perform, begun, if_true]
  rfl

theorem world_answer (machine : Machine) (reply : Reply) :
    (machine.answer reply).world =
      { machine.world with
        client := machine.world.client.keeping machine.frame.keep reply.values } := by
  obtain
    ⟨world, agenda, ⟨receiver, arguments, keep, last⟩, callers, muted, records, reported, limit⟩ :=
    machine
  cases keep with
  | none => rfl
  | some register => cases reply <;> rfl

theorem step_answer {reply : Reply} (shape : machine.agenda = .answer reply :: rest) :
    machine.step.world =
        { machine.world with
          client := machine.world.client.keeping machine.frame.keep reply.values } ∧
      machine.step.agenda = rest ∧ machine.step.frame = { machine.frame with reply } := by
  have parts := parts_answer { machine with agenda := rest } reply
  rw [step_of_cons shape]
  exact ⟨world_answer { machine with agenda := rest } reply, parts.1, parts.2.1⟩

theorem step_finish (shape : machine.agenda = .finish label :: rest) :
    machine.step.world = machine.world ∧ machine.step.agenda = rest ∧
      machine.step.frame = machine.frame := by
  rw [step_of_cons shape]
  simp only [carryOut, record]
  split <;> exact ⟨rfl, rfl, rfl⟩

/-- Whatever comes before an answer, it is the answer in the end. -/
theorem Finishes.answered {later : Machine} {front : List Task} {reply : Reply}
    (finishes : Finishes rest machine later)
    (shape : machine.agenda = front ++ .answer reply :: rest) : later.frame.reply = reply := by
  obtain ⟨middle, ⟨-, agenda⟩, onward⟩ := @Finishes.split _ _ _ front [.answer reply] finishes
    shape
  obtain ⟨-, left, frame⟩ := step_answer agenda
  have last := @Finishes.step _ _ _ [] _ onward agenda
  rw [last.eq_self left, frame]

theorem finishes_of_finish (shape : machine.agenda = .finish label :: rest) :
    ∃ last, Finishes rest machine last ∧ last.world = machine.world ∧
      last.frame = machine.frame := by
  obtain ⟨world, agenda, frame⟩ := step_finish shape
  exact ⟨machine.step, (finishes_refl agenda).head [] shape, world, frame⟩

theorem finishes_done {after : World} {reply : Reply}
    (shape : machine.agenda = .perform (.act label command keep) :: rest)
    (allowed : machine.isAllowed command = true)
    (done : machine.world.perform machine.read command = after.done reply) :
    ∃ last, Finishes rest machine last ∧
      last.world = { after with client := after.client.keeping keep reply.values } ∧
      last.frame.reply = reply := by
  have stepped := step_act_eq shape allowed
  rw [done] at stepped
  have agenda : machine.step.agenda = .answer reply :: .finish label :: rest := by
    rw [stepped]
    rfl
  obtain ⟨worldOnce, agendaOnce, frameOnce⟩ := step_answer agenda
  obtain ⟨last, finishes, worldLast, frameLast⟩ := finishes_of_finish agendaOnce
  refine ⟨last, ?_, ?_, ?_⟩
  · exact (finishes.head [.finish label] agenda).head [] shape
  · rw [worldLast, worldOnce, stepped]
    rfl
  · rw [frameLast, frameOnce]

end Steps

end Machine

theorem Route.reply_ok (route : Route) (value : Value) :
    route.reply (.ok value) = .value value := by
  cases route <;> rfl

namespace World

def calling (world : World) (call : Call) : Outcome :=
  (world.entered call).enterSignal call.bridge call.entry call.route call.receiver call.arguments

def exited (world : World) (call : Call) : World :=
  match call.route with
  | .direct =>
      world.modifyBridge call.bridge fun bridge => { bridge with active := bridge.active - 1 }
  | .script => world

section Calls

variable {before world after : World} {call : Call}

theorem parts_entered (world : World) (call : Call) :
    (world.entered call).engine = world.engine ∧ (world.entered call).client = world.client := by
  unfold entered
  split <;> exact ⟨rfl, rfl⟩

theorem parts_exited (world : World) (call : Call) :
    (world.exited call).engine = world.engine ∧ (world.exited call).client = world.client := by
  unfold exited
  split <;> exact ⟨rfl, rfl⟩

theorem found_entered {table : Bridge} (found : world.bridge? call.bridge = some table) :
    ∃ held, (world.entered call).bridge? call.bridge = some held ∧
      held.classId = table.classId ∧ held.states = table.states ∧ held.config = table.config := by
  unfold entered
  split
  · refine ⟨{ table with active := table.active + 1 }, ?_, rfl, rfl, rfl⟩
    rw [beginCall, bridge_modify, if_pos rfl, found]
    rfl
  · exact ⟨table, found, rfl, rfl, rfl⟩

/-- Whatever a call does to the tables, it does to them where the call is over. -/
theorem bridge_exited {change : BridgeId → Slab SignalState → Slab SignalState}
    (tables : ∀ id, after.bridge? id = ((before.entered call).bridge? id).map fun bridge =>
      { bridge with states := change id bridge.states }) (id : BridgeId) :
    (after.exited call).bridge? id = (before.bridge? id).map fun bridge =>
      { bridge with states := change id bridge.states } := by
  have here := tables id
  have there := tables call.bridge
  unfold exited
  unfold entered at here there
  cases route : call.route with
  | script =>
      rw [route] at here
      exact here
  | direct =>
      simp only [route, beginCall, bridge_modify, if_true] at here there
      simp only [bridge_modify]
      split
      · rename_i same
        rw [there, ← same]
        cases before.bridge? id <;> rfl
      · rename_i other
        rw [here, if_neg other]

theorem end_call_of_named {id : BridgeId} (named : id ∈ world.client.bridges.values) :
    world.endCall id = (world.modifyBridge id fun bridge =>
      { bridge with active := bridge.active - 1 }, []) := by
  have holds : (world.modifyBridge id fun bridge =>
      { bridge with active := bridge.active - 1 }).holdsBridge id = true :=
    holds_bridge_iff.2 (.inl named)
  simp [endCall, settleBridge, holds]

end Calls

end World

theorem Client.bridges_keeping (client : Client) (keep : Option String) (values : List Value) :
    (client.keeping keep values).bridges = client.bridges := by
  unfold keeping
  split <;> rfl

namespace Machine

section Calls

variable {machine : Machine} {rest : List Task} {label : String} {command : Command}
  {keep : Option String} {call : Call}

/-- The step that is next calls an entry point. -/
def Calls (machine : Machine) (label : String) (keep : Option String) (call : Call)
    (rest : List Task) : Prop :=
  ∃ command, machine.agenda = .perform (.act label command keep) :: rest ∧
    machine.world.request machine.read command = .call call

structure Returns (machine : Machine) (label : String) (call : Call) (rest : List Task)
    (later : Machine) (value : Value) : Prop where
  finishes : Finishes (call.closing ++ .finish label :: rest) machine.step later
  reply : later.frame.reply = .value value

/-- The entry point has returned a value, and until then every count has stayed in bounds. -/
structure ReturnsInBounds (machine : Machine) (label : String) (call : Call) (rest : List Task)
    (later : Machine) (value : Value) : Prop where
  returns : machine.Returns label call rest later value
  bounds : ∀ passed, Inside (call.closing ++ .finish label :: rest) machine.step passed →
    passed.world.InBounds

theorem Returns.in_bounds {later : Machine} {value : Value}
    (returns : machine.Returns label call rest later value)
    (stays : machine.step.StaysInBounds) : machine.ReturnsInBounds label call rest later value where
  returns := returns
  bounds := by
    intro passed inside
    obtain ⟨fuel, same⟩ := inside.reached
    exact same ▸ stays fuel

/-- Who calls a bridge holds it, or calls a function of a class that does. -/
theorem holds_of_call (attained : machine.Attained)
    (running : machine.world.engine.running = true)
    (calls : machine.world.request machine.read command = .call call) :
    machine.world.holdsBridge call.bridge = true := by
  have account := machine.world.account machine.read command
  rw [← World.request_errand] at calls
  generalize machine.world.errand machine.read command = errand at account calls
  cases account with
  | @call _ function _ _ owns offers receives listed =>
      have served := attained.kept.grasp.served.offers offers
      cases function with
      | signal bridge entry =>
          cases calls
          obtain ⟨table, found, held⟩ := served
          exact World.holds_bridge_iff.2 (.inr ⟨table, found, .inl ⟨held, running⟩⟩)
      | script body => cases calls
  | enter entry receiver operands named =>
      cases calls
      exact World.holds_bridge_iff.2 (.inl (NameMap.mem_values_of_find named))
  | _ => cases calls

theorem Calls.table (calls : machine.Calls label keep call rest) (attained : machine.Attained)
    (running : machine.world.engine.running = true) :
    ∃ table, machine.world.bridge? call.bridge = some table ∧ table.states.Sound := by
  obtain ⟨command, shape, calls⟩ := calls
  have holds := holds_of_call attained running calls
  obtain ⟨table, found⟩ :=
    Option.isSome_iff_exists.1 (attained.kept.grasp.present (.inl holds))
  exact ⟨table, found, attained.kept.grasp.sound call.bridge table found holds⟩

theorem Calls.named (calls : machine.Calls label keep call rest) :
    call.route = .direct → call.bridge ∈ machine.world.client.bridges.values := by
  obtain ⟨command, shape, calls⟩ := calls
  exact (call_command calls).2.2

theorem Calls.busy (calls : machine.Calls label keep call rest) :
    ∃ task, machine.agenda = task :: rest := by
  obtain ⟨command, shape, calls⟩ := calls
  exact ⟨_, shape⟩

/-- A call leaves what the entry point leaves, and then the call is closed. -/
theorem step_call_eq (running : machine.world.engine.running = true)
    (calls : machine.Calls label keep call rest) :
    machine.step =
      { machine with
        world := (machine.world.calling call).1
        agenda := (machine.world.calling call).2 ++ (call.closing ++ .finish label :: rest)
        frame.keep := keep } := by
  obtain ⟨command, shape, calls⟩ := calls
  have performed : machine.world.perform machine.read command = machine.world.place call :=
    World.perform_request running (by rw [calls]; rfl)
  rw [step_act_eq shape (call_command calls).1, performed, World.place_eq, List.append_assoc]
  rfl

theorem step_call (running : machine.world.engine.running = true)
    (calls : machine.Calls label keep call rest) :
    machine.step.world = (machine.world.calling call).1 ∧
      machine.step.agenda =
        (machine.world.calling call).2 ++ (call.closing ++ .finish label :: rest) ∧
      machine.step.frame = { machine.frame with keep } := by
  rw [step_call_eq running calls]
  exact ⟨rfl, rfl, rfl⟩

/-- What a call does before it is closed is done before the rest. -/
theorem Finishes.head_of_call {later : Machine} {task : Task} (tasks : List Task)
    (shape : machine.agenda = task :: (tasks ++ (call.closing ++ .finish label :: rest)))
    (finishes : Finishes rest machine.step later) : Finishes rest machine later := by
  have waits : machine.agenda = task :: ((tasks ++ (call.closing ++ [.finish label])) ++ rest) := by
    simp [shape]
  exact finishes.head _ waits

/-- Once it has answered, a call on a bridge that is still named changes nothing but that it is
over. -/
theorem finishes_closing (agenda : machine.agenda = call.closing ++ .finish label :: rest)
    (named : call.route = .direct → call.bridge ∈ machine.world.client.bridges.values) :
    ∃ last, Finishes rest machine last ∧ last.world = machine.world.exited call ∧
      last.frame = machine.frame := by
  unfold Call.closing at agenda
  unfold World.exited
  cases route : call.route with
  | script =>
      simp only [route, List.nil_append] at agenda
      exact finishes_of_finish agenda
  | direct =>
      simp only [route, List.singleton_append] at agenda
      have stepped : machine.step.world = machine.world.modifyBridge call.bridge (fun bridge =>
            { bridge with active := bridge.active - 1 }) ∧
          machine.step.agenda = .finish label :: rest ∧ machine.step.frame = machine.frame := by
        rw [step_of_cons agenda]
        simp [carryOut, act, World.end_call_of_named (named route)]
      obtain ⟨last, finishes, world, frame⟩ := finishes_of_finish stepped.2.1
      exact ⟨last, finishes.head [.finish label] agenda, world.trans stepped.1,
        frame.trans stepped.2.2⟩

theorem finishes_answer {reply : Reply}
    (agenda : machine.agenda = .answer reply :: (call.closing ++ .finish label :: rest))
    (named : call.route = .direct → call.bridge ∈ machine.world.client.bridges.values) :
    ∃ last, Finishes rest machine last ∧ last.frame.reply = reply ∧
      last.world = { machine.world with
        client := machine.world.client.keeping machine.frame.keep reply.values }.exited call := by
  obtain ⟨world, left, frame⟩ := step_answer agenda
  have bridges : machine.step.world.client.bridges = machine.world.client.bridges := by
    rw [world]
    exact Client.bridges_keeping _ _ _
  obtain ⟨last, finishes, worldLast, frameLast⟩ :=
    @finishes_closing machine.step rest label call left (by rwa [bridges])
  exact ⟨last, finishes.head_of_call [] agenda, by rw [frameLast, frame],
    by rw [worldLast, world]⟩

/-- A call that is answered at once leaves what the entry point left, and is over. -/
theorem finishes_call_done (running : machine.world.engine.running = true)
    (calls : machine.Calls label keep call rest) {after : World} {reply : Reply}
    (leaves : machine.world.calling call = after.done reply)
    (client : after.client = machine.world.client) :
    ∃ last, Finishes rest machine last ∧ last.frame.reply = reply ∧
      last.world =
        { after with client := machine.world.client.keeping keep reply.values }.exited call := by
  obtain ⟨world, agenda, frame⟩ := step_call running calls
  rw [leaves] at world agenda
  have same : machine.step.world.client = machine.world.client := by rw [world, ← client]; rfl
  obtain ⟨last, finishes, answered, ends⟩ :=
    @finishes_answer machine.step rest label call reply agenda (by rw [same]; exact calls.named)
  obtain ⟨task, shape⟩ := calls.busy
  rw [same, frame, world] at ends
  exact ⟨last, finishes.head [] shape, answered, ends⟩

end Calls

end Machine

end ScriptSignal
