import ScriptSignal.Proofs.Agreement
import ScriptSignal.Proofs.Attained
import ScriptSignal.Proofs.Signals

/-!
# The finalization of a Signal

A finalization empties the slot of the handle and takes its state out of the table before it
gives up the callback, and after it the link. What runs in between can do what it likes: to
every entry point the handle is unbound from then on, no construction fills its slot again, and
a further finalization finds nothing to give up.
-/

namespace ScriptSignal

set_option autoImplicit false

/-- A bridge apart from the calls on it that are under way. -/
def Bridge.resting (bridge : Bridge) : Bridge := { bridge with active := 0 }

namespace World

structure Still (before after : World) : Prop where
  engine : after.engine = before.engine
  client : after.client = before.client
  bridges : ∀ id, (after.bridge? id).map Bridge.resting = (before.bridge? id).map Bridge.resting

section Parts

variable {before after world : World} {id : BridgeId} {value : Value} {key : Key}

theorem Still.refl (world : World) : Still world world := ⟨rfl, rfl, fun _ => rfl⟩

theorem Still.trans {middle : World} (first : Still before middle) (last : Still middle after) :
    Still before after :=
  ⟨last.engine.trans first.engine, last.client.trans first.client,
    fun id => (last.bridges id).trans (first.bridges id)⟩

theorem still_begin_call (world : World) (id : BridgeId) : Still world (world.beginCall id) := by
  refine ⟨rfl, rfl, fun other => ?_⟩
  rw [beginCall, bridge_modify]
  split
  · rename_i same
    rw [same, Option.map_map]
    rfl
  · rfl

theorem Still.tables (still : Still before after) (id : BridgeId) :
    (after.bridge? id).map (fun bridge => (bridge.classId, bridge.states)) =
      (before.bridge? id).map fun bridge => (bridge.classId, bridge.states) := by
  have same := congrArg (Option.map fun bridge : Bridge => (bridge.classId, bridge.states))
    (still.bridges id)
  rw [Option.map_map, Option.map_map] at same
  exact same

theorem Still.found (still : Still before after) {bridge : Bridge}
    (found : before.bridge? id = some bridge) :
    ∃ later, after.bridge? id = some later ∧ later.resting = bridge.resting := by
  have same := still.bridges id
  rw [found, Option.map_some, Option.map_eq_some_iff] at same
  exact same

theorem Still.slots (still : Still before after) (value : Value) (classId : ClassId) :
    after.slotKey? value classId = before.slotKey? value classId := by
  unfold slotKey? object?
  rw [still.engine]

theorem Still.bound_state (still : Still before after) (id : BridgeId) (value : Value) :
    after.boundState id value = before.boundState id value :=
  bound_state_of_same (still.tables id) (still.slots value)

theorem Still.bound_key (still : Still before after) (id : BridgeId) (value : Value) :
    after.boundKey id value = before.boundKey id value := by
  have tables := still.tables id
  unfold boundKey
  cases found : before.bridge? id with
  | none =>
      have missing : after.bridge? id = none := by simpa [found] using tables
      rw [missing]
      rfl
  | some bridge =>
      rw [found, Option.map_some, Option.map_eq_some_iff] at tables
      obtain ⟨later, reached, same⟩ := tables
      rw [reached, Option.bind_some, Option.bind_some, still.slots, (Prod.mk.inj same).1]

end Parts

section Classes

variable {before after : World} {value : Value}

theorem Change.class_of_known (change : Change before after) (known : value.Within before.size) :
    after.classOf? value = before.classOf? value := by
  rcases change.kinds value with same | ⟨rfl, -⟩
  · exact class_of_kind same
  · exact absurd known (Nat.lt_irrefl _)

theorem Changes.class_of_known (changes : Changes before after)
    (known : value.Within before.size) : after.classOf? value = before.classOf? value := by
  induction changes with
  | refl => rfl
  | tail first change induction =>
      have grows := (Changes.persists first).size
      exact (change.class_of_known (known.mono grows)).trans induction

theorem class_of_finalize_signal (world : World) (id : BridgeId) (handle value : Value) :
    (world.finalizeSignal id handle).1.classOf? value = world.classOf? value := by
  rcases finalize_signal_cases world id handle with
    ⟨same, -⟩ | ⟨key, state, -, -, same⟩ | ⟨key, -, -, same⟩ <;> rw [same]
  · rfl
  · rw [class_of_emit, class_of_modify_states, class_of_bind_handle]
  · rw [class_of_emit, class_of_bind_handle]

theorem Effect.class_of_known (effect : Effect before after)
    (running : after.engine.running = true) (known : value.Within before.size) :
    after.classOf? value = before.classOf? value := by
  cases effect with
  | changes changes => exact changes.class_of_known known
  | @write world _ id key old new first found last =>
      have grows := (Changes.persists first).size
      have early := first.class_of_known known
      have late := last.class_of_known (known.mono grows)
      rw [class_of_modify_states] at late
      exact late.trans early
  | finalize first id handle =>
      rw [class_of_finalize_signal]
      exact first.class_of_known known
  | settle first id =>
      have early := first.class_of_known known
      rw [← early]
      unfold settleBridge
      split
      · rfl
      · dsimp only
        split
        · exact class_of_modify_states _ _ _ _
        · rw [class_of_emit, class_of_modify_states]
  | stop stopped =>
      rw [stopped] at running
      cases running

end Classes

end World

namespace Machine

/-- The machines that come after one, under the conditions under which machines are reached. -/
inductive Onward (classId : ClassId) (machine : Machine) : Machine → Prop
  | refl : Onward classId machine machine
  | submit {later : Machine} {step : Step} (onward : Onward classId machine later)
      (idle : later.agenda = []) (known : step.Known later.world) :
      Onward classId machine (later.submit step)
  | step {later : Machine} (onward : Onward classId machine later)
      (running : later.world.engine.running = true)
      (spared : later.slotWritten? ≠ some classId) : Onward classId machine later.step

structure Loose (classId : ClassId) (object : ObjectId) (machine : Machine) : Prop where
  known : object.index < machine.world.size
  unbound : machine.world.slotKey? (.object object) classId = none
  free : ∀ id route handle link, Task.bind id route handle link ∈ machine.agenda →
    handle ≠ .object object

section Onward

variable {machine later : Machine} {classId : ClassId} {object : ObjectId}

theorem Reachable.onward (reached : Reachable classId machine)
    (onward : Onward classId machine later) : Reachable classId later := by
  induction onward with
  | refl => exact reached
  | submit _ idle known induction => exact induction.submit idle known
  | step _ running spared induction => exact induction.step running spared

theorem Reachable.attained (reached : Reachable classId machine) : machine.Attained := by
  induction reached with
  | start setting => exact attained_start setting
  | submit _ idle _ induction => exact induction.submit idle _
  | step _ _ _ induction => exact induction.step

theorem Onward.after (onward : Onward classId machine.step later)
    (running : machine.world.engine.running = true)
    (spared : machine.slotWritten? ≠ some classId) : Onward classId machine later := by
  induction onward with
  | refl => exact .step .refl running spared
  | submit _ idle known induction => exact induction.submit idle known
  | step _ alive quiet induction => exact induction.step alive quiet

theorem Onward.persists (onward : Onward classId machine later)
    (reached : Reachable classId machine) (running : later.world.engine.running = true) :
    World.Persists machine.world later.world := by
  induction onward with
  | refl => exact .refl _
  | submit _ _ _ induction => exact induction running
  | @step before onward alive spared induction =>
      refine (induction alive).trans ?_
      cases shape : before.agenda with
      | nil =>
          rw [step_of_nil shape]
          exact .refl _
      | cons task rest =>
          have orderly := (reached.onward onward).orderly alive
          exact (orderly.grounded.stepped shape).persists running

/-- What a step puts before the rest binds only the object that it allocates. -/
theorem Stepped.binds {rest : List Task} {task : Task} {after : Machine}
    (stepped : Stepped machine rest task after) :
    ∃ tasks, after.agenda = tasks ++ rest ∧
      ∀ id route handle link, Task.bind id route handle link ∈ tasks →
        ¬handle.Within machine.world.size := by
  have none : ∀ {tasks : List Task}, (∀ next ∈ tasks, ¬next.Binds) →
      ∀ id route handle link, Task.bind id route handle link ∈ tasks →
        ¬handle.Within machine.world.size :=
    fun all id route handle link member => absurd trivial (all _ member)
  cases stepped with
  | lawful lawful world agenda =>
      refine ⟨_, agenda, ?_⟩
      cases lawful with
      | regular regular => exact none fun next member => (regular.ordinary next member).not_binds
      | @construct made id route proto link ofClass more changes _ _ _ _ ordinary _ =>
          intro other otherRoute handle otherLink member known
          simp only [List.mem_cons, reduceCtorEq, false_or] at member
          rcases member with same | later
          · cases same
            exact absurd (changes.persists.size.trans_lt' known) (Nat.lt_irrefl _)
          · exact (ordinary _ later).elim
  | @reclaim _ id _ found dead world agenda =>
      refine ⟨_, agenda.trans (List.append_cons _ _ _), none fun next member => ?_⟩
      rcases List.mem_append.1 member with early | final
      · rcases World.task_of_finalizer early with ⟨held, rfl⟩ | ⟨body, receiver, arguments, rfl⟩
        · exact fun binds => binds
        · exact fun binds => binds
      · cases List.mem_singleton.1 final
        exact fun binds => binds
  | remove world agenda =>
      refine ⟨_, agenda, none fun next member => ?_⟩
      obtain ⟨value, rfl⟩ := releases_of_remove_object _ _ next member
      exact fun binds => binds
  | bind world agenda =>
      refine ⟨_, agenda, none fun next member => ?_⟩
      unfold World.bindSignal at member
      split at member
      · cases List.mem_singleton.1 member
        exact fun binds => binds
      · rcases List.mem_append.1 member with drop | final
        · obtain ⟨held, -, rfl⟩ := List.mem_map.1 drop
          exact fun binds => binds
        · cases List.mem_singleton.1 final
          exact fun binds => binds
  | slot world agenda =>
      exact ⟨[_, _], agenda, none (by simp [Task.Binds])⟩

/-- An empty slot stays empty. -/
theorem Loose.step (loose : Loose classId object machine) (orderly : machine.Orderly classId)
    (spared : machine.slotWritten? ≠ some classId)
    (running : machine.step.world.engine.running = true) : Loose classId object machine.step := by
  cases shape : machine.agenda with
  | nil =>
      rw [step_of_nil shape]
      exact loose
  | cons task rest =>
      have stepped := orderly.grounded.stepped shape
      have known : Value.Within machine.world.size (.object object) := loose.known
      refine ⟨known.mono (stepped.persists running).size, ?_, ?_⟩
      · cases stepped with
        | lawful lawful world agenda =>
            rw [world] at running ⊢
            rcases lawful.effect.slot_key running (.object object) classId with same | gone
            · exact same.trans loose.unbound
            · exact gone
        | @reclaim _ id _ found dead world agenda =>
            have regular := World.regular_run_finalizer orderly.grounded.world id
            rw [world] at running ⊢
            rcases regular.effect.slot_key running (.object object) classId with same | gone
            · exact same.trans loose.unbound
            · exact gone
        | remove world agenda =>
            rw [world, World.slot_key_remove_object]
            split
            · rfl
            · exact loose.unbound
        | @bind _ id route handle link world agenda =>
            have poised := orderly.poised
            rw [shape] at poised
            obtain ⟨bridge, found, fresh⟩ := poised.awaits
            rw [world, World.slot_key_bind_signal found fresh, if_neg]
            · exact loose.unbound
            · rintro ⟨same, -⟩
              exact loose.free id route handle link (by simp [shape]) same.symm
        | @slot _ label operand ofClass key keep world agenda =>
            rw [world, World.slot_key_set_slot, if_neg]
            · exact loose.unbound
            · rintro ⟨-, rfl, -⟩
              exact spared (by simp [slotWritten?, shape])
      · obtain ⟨tasks, agenda, binds⟩ := stepped.binds
        intro id route handle link member same
        rw [agenda] at member
        rcases List.mem_append.1 member with new | old
        · exact binds id route handle link new (same ▸ known)
        · exact loose.free id route handle link (by simp [shape, old]) same

theorem Loose.onward (loose : Loose classId object machine) (reached : Reachable classId machine)
    (onward : Onward classId machine later) (running : later.world.engine.running = true) :
    Loose classId object later := by
  induction onward with
  | refl => exact loose
  | @submit before step onward idle known induction =>
      obtain ⟨inside, unbound, -⟩ := induction running
      refine ⟨inside, unbound, fun id route handle link member => ?_⟩
      simp [Machine.submit, idle] at member
  | @step before onward alive spared induction =>
      exact (induction alive).step ((reached.onward onward).orderly alive) spared running

/-- While the engine runs, an object that was allocated comes to no other class. -/
theorem Onward.class_of (onward : Onward classId machine later)
    (reached : Reachable classId machine) (running : later.world.engine.running = true)
    (known : object.index < machine.world.size) {ofClass : ClassId}
    (found : later.world.classOf? (.object object) = some ofClass) :
    machine.world.classOf? (.object object) = some ofClass := by
  induction onward with
  | refl => exact found
  | submit _ _ _ induction => exact induction running found
  | @step before onward alive spared induction =>
      refine induction alive ?_
      have inside : Value.Within before.world.size (.object object) :=
        Nat.lt_of_lt_of_le known (onward.persists reached alive).size
      cases shape : before.agenda with
      | nil => rwa [step_of_nil shape] at found
      | cons task rest =>
          have orderly := (reached.onward onward).orderly alive
          cases orderly.grounded.stepped shape with
          | lawful lawful world agenda =>
              rw [world] at running found
              rwa [lawful.effect.class_of_known running inside] at found
          | @reclaim _ id _ _ dead world agenda =>
              have regular := World.regular_run_finalizer orderly.grounded.world id
              rw [world] at running found
              rwa [regular.effect.class_of_known running inside] at found
          | @remove _ id world agenda =>
              have kinds := World.kind_remove_object before.world id (.object object)
              rw [world] at found
              split at kinds
              · rw [World.class_of_eq, kinds] at found
                cases found
              · rwa [World.class_of_kind kinds] at found
          | @bind _ id route handle link world agenda =>
              have poised := orderly.poised
              rw [shape] at poised
              obtain ⟨bridge, reaches, fresh⟩ := poised.awaits
              rwa [world, World.class_of_bind_signal reaches] at found
          | slot world agenda =>
              rwa [world, World.class_of_set_slot] at found

end Onward

/-- How far the references of a state were given back. Each of them is released once, in their
order, and all that comes of it is done before the next. -/
inductive Releasing (rest : List Task) : List StrongRef → Machine → Machine → Prop
  | due {held : List StrongRef} {machine : Machine}
      (agenda : machine.agenda = held.map .drop ++ rest) : Releasing rest held machine machine
  | during {first : StrongRef} {held : List StrongRef} {machine later : Machine}
      (agenda : machine.agenda = .drop first :: (held.map .drop ++ rest))
      (released : machine.step.agenda = .release first.value :: (held.map .drop ++ rest))
      (inside : Inside (held.map .drop ++ rest) machine.step later) :
      Releasing rest (first :: held) machine later
  | next {first : StrongRef} {held : List StrongRef} {machine middle later : Machine}
      (agenda : machine.agenda = .drop first :: (held.map .drop ++ rest))
      (released : machine.step.agenda = .release first.value :: (held.map .drop ++ rest))
      (inside : Inside (held.map .drop ++ rest) machine.step middle)
      (others : Releasing rest held middle later) : Releasing rest (first :: held) machine later

section Releasing

variable {machine later : Machine} {rest : List Task} {held : List StrongRef}

theorem Inside.agenda (inside : Inside rest machine later) (attained : machine.Attained)
    {front : List Task} (shape : machine.agenda = front ++ rest) :
    ∃ front, later.agenda = front ++ rest := by
  induction inside with
  | refl => exact ⟨front, shape⟩
  | step inside here induction =>
      obtain ⟨tasks, agenda⟩ := (inside.attained attained).agenda_step here
      exact ⟨_, agenda.trans (List.append_assoc _ _ _).symm⟩

/-- A reference that is dropped while the engine runs is released. -/
theorem agenda_of_drop {first : StrongRef} (shape : machine.agenda = .drop first :: rest)
    (running : machine.world.engine.running = true) :
    machine.step.agenda = .release first.value :: rest := by
  rw [step_of_cons shape]
  simp [carryOut, act, World.dropReference, running]

theorem Releasing.step_due (agenda : machine.agenda = held.map .drop ++ rest)
    (running : machine.world.engine.running = true) {task : Task} {front : List Task}
    (shape : machine.agenda = task :: (front ++ rest)) :
    Releasing rest held machine machine.step := by
  cases held with
  | nil =>
      have longer := congrArg List.length (agenda.symm.trans shape)
      simp at longer
      omega
  | cons first held => exact .during agenda (agenda_of_drop agenda running) .refl

theorem Releasing.step (releasing : Releasing rest held machine later)
    (attained : machine.Attained) (running : later.world.engine.running = true) {task : Task}
    {front : List Task} (shape : later.agenda = task :: (front ++ rest)) :
    Releasing rest held machine later.step := by
  induction releasing with
  | due agenda => exact Releasing.step_due agenda running shape
  | @during first held machine later agenda released inside =>
      have given : machine.step.agenda = [.release first.value] ++ (held.map .drop ++ rest) :=
        released
      obtain ⟨ahead, waits⟩ := inside.agenda attained.step given
      cases ahead with
      | nil => exact .next agenda released inside (Releasing.step_due waits running shape)
      | cons next ahead => exact .during agenda released (inside.step waits)
  | @next first held machine middle later agenda released inside others induction =>
      exact .next agenda released inside
        (induction (inside.attained attained.step) running shape)

/-- The references of a state are given back before the rest, as long as the engine runs. -/
theorem Inside.releasing (inside : Inside rest machine later) (attained : machine.Attained)
    (agenda : machine.agenda = held.map .drop ++ rest)
    (running : later.world.engine.running = true) : Releasing rest held machine later := by
  induction inside with
  | refl => exact .due agenda
  | @step before task front inside shape induction =>
      have alive : before.world.engine.running = true := by
        cases runs : before.world.engine.running with
        | true => rfl
        | false =>
            rw [(inside.attained attained).kept.engine_step runs, runs] at running
            cases running
      exact (induction alive).step attained alive shape

end Releasing

/-- The first task of a machine finalizes a value through a bridge, on behalf of a script or
the client or as the finalizer of a class, and this comes after it. -/
inductive Finalizing (machine : Machine) (id : BridgeId) (value : Value) : List Task → Prop
  | called {label name : String} {operand : Operand} {keep : Option String} {rest : List Task}
      (shape : machine.agenda =
        .perform (.act label (.bridge (.finalize name operand)) keep) :: rest)
      (named : machine.world.client.bridges.find? name = some id)
      (means : machine.read operand = value) :
      Finalizing machine id value (.answer .nothing :: .endCall id :: .finish label :: rest)
  | now {label : String} {operand : Operand} {keep : Option String} {rest : List Task}
      {object : ObjectId} {classId : ClassId} {record : ClassRecord}
      (shape : machine.agenda = .perform (.act label (.object (.finalizeNow operand)) keep) :: rest)
      (means : machine.read operand = .object object) (same : value = .object object)
      (ofClass : machine.world.classOf? value = some classId)
      (registered : machine.world.engine.registry.record? classId = some record)
      (finalizer : record.finalizer = .signal id) :
      Finalizing machine id value (.answer .nothing :: .finish label :: rest)
  | reclaimed {rest : List Task} {object : ObjectId} {classId : ClassId} {record : ClassRecord}
      (shape : machine.agenda = .reclaim object :: rest) (spent : machine.world.Spent object)
      (same : value = .object object)
      (ofClass : machine.world.classOf? value = some classId)
      (registered : machine.world.engine.registry.record? classId = some record)
      (finalizer : record.finalizer = .signal id) :
      Finalizing machine id value (.remove object :: rest)

section Finalizing

variable {machine : Machine} {id : BridgeId} {value : Value} {rest : List Task}

/-- Whoever finalizes, the world is as it was, but for a call that is under way. -/
theorem Finalizing.stepped (finalizing : Finalizing machine id value rest)
    (running : machine.world.engine.running = true) :
    ∃ begun, machine.world.Still begun ∧
      machine.step.world = (begun.finalizeSignal id value).1 ∧
      machine.step.agenda = (begun.finalizeSignal id value).2 ++ rest := by
  have finalizes : ∀ {object : ObjectId} {classId : ClassId} {record : ClassRecord},
      value = .object object → machine.world.classOf? value = some classId →
      machine.world.engine.registry.record? classId = some record →
      record.finalizer = .signal id →
      machine.world.runFinalizer object = machine.world.finalizeSignal id value := by
    intro object classId record same ofClass registered finalizer
    subst same
    simp [World.runFinalizer, ofClass, registered, finalizer]
  cases finalizing with
  | @called label name operand keep rest shape named means =>
      obtain ⟨world, agenda⟩ := @perform_act machine rest label
        (.bridge (.finalize name operand)) keep rfl
      have performed : machine.world.perform (machine.frame.read machine.world.client.registers)
          (.bridge (.finalize name operand)) = machine.world.finalizeThrough id value := by
        simp [World.perform, running, World.performRunning, World.performBridge,
          World.withBridge, named, ← means, read]
      rw [performed] at world agenda
      refine ⟨machine.world.beginCall id, World.still_begin_call _ id, ?_, ?_⟩
      · rw [step_of_cons shape]
        exact world
      · rw [step_of_cons shape]
        refine agenda.trans ?_
        simp [World.finalizeThrough]
  | @now label operand keep rest object classId record shape means same ofClass registered
      finalizer =>
      obtain ⟨world, agenda⟩ := @perform_act machine rest label
        (.object (.finalizeNow operand)) keep rfl
      have performed : machine.world.perform (machine.frame.read machine.world.client.registers)
          (.object (.finalizeNow operand)) =
            ((machine.world.finalizeSignal id value).1,
              (machine.world.finalizeSignal id value).2 ++ [.answer .nothing]) := by
        have means : machine.frame.read machine.world.client.registers operand = .object object :=
          means
        simp [World.perform, running, World.performRunning, World.performObject, means,
          World.finalizeNow, finalizes same ofClass registered finalizer, World.after]
      rw [performed] at world agenda
      refine ⟨machine.world, .refl _, ?_, ?_⟩
      · rw [step_of_cons shape]
        exact world
      · rw [step_of_cons shape]
        refine agenda.trans ?_
        simp
  | @reclaimed rest object classId record shape spent same ofClass registered finalizer =>
      obtain ⟨held, found, last⟩ := spent
      refine ⟨machine.world, .refl _, ?_, ?_⟩
      all_goals
        rw [step_of_cons shape, ← finalizes same ofClass registered finalizer]
        simp [carryOut, act, World.reclaim, found, last]

/-- The slots of the class are not written, and no construction is half done. -/
theorem Finalizing.calm (finalizing : Finalizing machine id value rest) {classId : ClassId}
    (orderly : machine.Orderly classId) :
    machine.slotWritten? ≠ some classId ∧ ∀ task ∈ rest, ¬task.Binds := by
  have free : ∀ {first : Task} {later : List Task}, machine.agenda = first :: later →
      ¬first.Binds → (∀ proto, first ≠ .release proto) → ∀ task ∈ later, ¬task.Binds := by
    intro first later shape binds releases
    have poised := orderly.poised
    rw [shape] at poised
    cases poised with
    | idle free => exact fun task member => free task (List.mem_cons_of_mem _ member)
    | bind awaits spared free => exact absurd trivial binds
    | release counted awaits spared free => exact absurd rfl (releases _)
  cases finalizing with
  | called shape named means =>
      have idle := free shape (fun binds => binds) (by simp)
      refine ⟨by simp [slotWritten?, shape], ?_⟩
      simpa [Task.Binds] using idle
  | now shape means same ofClass registered finalizer =>
      have idle := free shape (fun binds => binds) (by simp)
      refine ⟨by simp [slotWritten?, shape], ?_⟩
      simpa [Task.Binds] using idle
  | reclaimed shape spent same ofClass registered finalizer =>
      have idle := free shape (fun binds => binds) (by simp)
      refine ⟨by simp [slotWritten?, shape], ?_⟩
      simpa [Task.Binds] using idle

theorem Finalizing.known (finalizing : Finalizing machine id value rest)
    (grounded : machine.Grounded) : value.Within machine.world.size := by
  have alive : ∀ {classId : ClassId}, machine.world.classOf? value = some classId →
      value.Within machine.world.size := by
    intro classId ofClass
    cases value with
    | object object =>
        cases found : machine.world.engine.heap.get? object with
        | some held => exact World.within_of_get found
        | none => simp [World.classOf?, World.object?, Value.object?, found] at ofClass
    | _ => trivial
  cases finalizing with
  | @called label name operand keep later shape named means =>
      rw [← means]
      have literals := grounded.agenda _ (by rw [shape]; exact List.mem_cons_self)
      refine within_read grounded.world grounded.frame (literals_of_operand ?_ literals)
      simp [Command.operands, BridgeCommand.operands]
  | now shape means same ofClass registered finalizer => exact alive ofClass
  | reclaimed shape spent same ofClass registered finalizer => exact alive ofClass

end Finalizing

section Finalizing

variable {machine later : Machine} {classId : ClassId} {id : BridgeId} {bridge : Bridge}
  {value : Value} {rest : List Task}

end Finalizing

/-- Whether a client's steps name no object and each runs to its end without writing a slot of
the class. -/
def sparesAll (classId : ClassId) (fuel : Nat) : Machine → List Step → Bool
  | _, [] => true
  | machine, step :: steps =>
      machine.agenda.isEmpty && step.literals.all (fun value => !value.isObject) &&
        spares classId fuel (machine.submit step) &&
          sparesAll classId fuel ((machine.submit step).run fuel) steps

theorem Reachable.run_all {classId : ClassId} {fuel : Nat} {machine : Machine} {steps : List Step}
    (reached : Reachable classId machine) (spared : sparesAll classId fuel machine steps = true) :
    Reachable classId (runAll fuel machine steps) := by
  induction steps generalizing machine with
  | nil => exact reached
  | cons step steps induction =>
      simp only [sparesAll, Bool.and_eq_true] at spared
      obtain ⟨⟨⟨idle, plain⟩, quiet⟩, later⟩ := spared
      have begun := reached.submit (List.isEmpty_iff.1 idle) (Step.known_of_no_objects _ plain)
      exact induction (begun.run quiet) later

end Machine

end ScriptSignal
