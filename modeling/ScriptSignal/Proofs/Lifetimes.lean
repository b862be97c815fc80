import ScriptSignal.Proofs.Constructions

/-!
# The life of a Signal leaves no trace

A Signal is constructed, its slot is filled and emptied any number of times, and then its handle
is given up. Whatever it came to hold on the way is given back once, and no reference that is
given back is the last one, since everybody else has a reference still. So nothing is reclaimed
but the handle, and the world is what it was before.
-/

namespace ScriptSignal

set_option autoImplicit false

namespace World

/-- What a call of a method comes to: the world stays as it is, or the slot of the handle is
filled, or it is emptied and what was in it is to be given back. -/
inductive Treats (world : World) (bridge : BridgeId) (handle : Value) : Outcome → Prop
  | kept {after : World} {reply : Reply} (same : world.Unchanged after) :
      Treats world bridge handle (after.done reply)
  | filled {key : Key} {state : SignalState} {callback : Value} {reply : Reply}
      (bound : world.boundState bridge handle = .ok (key, state))
      (empty : state.callback = none) (function : world.isFunction callback = true) :
      Treats world bridge handle
        ((((world.acquire callback).modifyStates bridge fun states =>
          states.set key (state.connected callback)).emit (.connected key)).done reply)
  | emptied {key : Key} {state : SignalState} {callback : StrongRef} {token : Int32}
      {reply : Reply} (bound : world.boundState bridge handle = .ok (key, state))
      (filled : state.callback = some callback) :
      Treats world bridge handle
        (((world.emit (.disconnecting key token)).modifyStates bridge fun states =>
          states.set key state.cleared).after
            [.drop callback, .report (.disconnected key)] reply)

section Treating

variable {before world after : World} {bridge : BridgeId} {handle : Value}

theorem treats_connect (world : World) (bridge : BridgeId) (route : Route) (handle : Value)
    (arguments : List Value) :
    Treats world bridge handle (world.connect bridge route handle arguments) := by
  unfold connect
  split
  · rename_i callback
    cases found : world.connectable bridge handle callback with
    | error failure => exact .kept (.refl world)
    | ok reached =>
        obtain ⟨key, state⟩ := reached
        obtain ⟨function, bound, -, empty⟩ := bound_state_of_connectable found
        exact .filled bound empty function
  · exact .kept (.refl world)

theorem treats_disconnect_token (world : World) (bridge : BridgeId) (route : Route)
    (handle : Value) (token : Int32) :
    Treats world bridge handle (world.disconnectToken bridge route handle token) := by
  unfold disconnectToken
  split
  · exact .kept (.refl world)
  · split
    · exact .kept (.refl world)
    · rename_i key reached
      dsimp only
      split
      · exact .kept (unchanged_emit world _)
      · rename_i state held
        have bound : world.boundState bridge handle = .ok (key, state) :=
          bound_state_eq_ok_iff.2 ⟨reached, held⟩
        split
        · exact .kept (unchanged_emit world _)
        · rename_i callback filled
          exact .emptied bound filled

theorem treats_enter_signal (world : World) (bridge : BridgeId) {entry : Entry} (route : Route)
    (handle : Value) (arguments : List Value) (method : entry ≠ .construct) :
    Treats world bridge handle (world.enterSignal bridge entry route handle arguments) := by
  cases entry with
  | construct => exact absurd rfl method
  | connect => exact treats_connect world bridge route handle arguments
  | disconnect =>
      simp only [enterSignal, disconnect]
      split
      · split
        · exact treats_disconnect_token world bridge route handle _
        · exact .kept (.refl world)
      · exact .kept (.refl world)
  | isEmpty =>
      simp only [enterSignal, isEmpty]
      split <;> exact .kept (.refl world)
  | toString => exact .kept (.refl world)

variable {id : ObjectId} {proto : Option ObjectId} {state : SignalState} {given : List Value}

theorem Unchanged.lowered (same : Unchanged world after) : Lowered world after fun _ => 0 := by
  rw [same.eq]
  exact ⟨⟨rfl, rfl, rfl, fun _ => rfl, rfl⟩, rfl, rfl, (Lowered.refl world).objects, fun _ => rfl⟩

/-- The new handle is bound through its own bridge only, and to its own state. -/
theorem Hosts.own (hosts : before.Hosts bridge id proto state given world) {other : BridgeId}
    {key : Key} {found : SignalState}
    (bound : world.boundState other (.object id) = .ok (key, found)) :
    other = bridge ∧ found = state := by
  have signal := hosts.signals other (.object id)
  rw [signal_eq_some_iff.2 ⟨key, bound⟩] at signal
  split at signal
  · rename_i here
    exact ⟨here.1, Option.some.inj signal⟩
  · have dead : before.isAlive (.object id) = false := by
      simp [isAlive, object?, Value.object?, hosts.fresh]
    rw [signal_of_dead dead] at signal
    cases signal

theorem Hosts.rewrite (hosts : before.Hosts bridge id proto state given world)
    {new : SignalState} {left : List Value} {more : ObjectId → Nat}
    (raised : Raised world after more) (moved : ∀ other, other ≠ id →
      (signalValues proto state ++ given).count (.object other) + more other =
        (signalValues proto new ++ left).count (.object other))
    (itself : more id = 0) (apart : .object id ∉ signalValues proto new ++ left)
    {changed : World} (engine : changed.engine = after.engine)
    (bridges : ∀ other, (changed.bridge? other).map (fun table => (table.classId, table.config)) =
      (world.bridge? other).map fun table => (table.classId, table.config))
    (signals : ∀ other value, changed.signal? other value =
      if other = bridge ∧ value = .object id then some new else world.signal? other value) :
    before.Hosts bridge id proto new left changed where
  fresh := hosts.fresh
  itself := by
    obtain ⟨classId, slot, found⟩ := hosts.itself
    refine ⟨classId, slot, ?_⟩
    rw [engine, raised.objects, found, itself]
    rfl
  others := by
    intro other different
    rw [engine, raised.objects, hosts.others other different, Option.map_map,
      ← moved other different]
    congr 1
    funext object
    simp only [Function.comp_apply, Object.mk.injEq, and_true]
    omega
  apart := apart
  signals := by
    intro other value
    rw [signals, hosts.signals]
    split <;> rfl
  bridges := fun other => (bridges other).trans (hosts.bridges other)
  total := by
    rw [engine, raised.engine]
    exact hosts.total

theorem bridges_write (world : World) (bridge : BridgeId) (key : Key) (new : SignalState)
    (other : BridgeId) :
    ((world.modifyStates bridge fun states => states.set key new).bridge? other).map
        (fun table => (table.classId, table.config)) =
      (world.bridge? other).map fun table => (table.classId, table.config) := by
  have same : SameSetting world
      (world.modifyStates bridge fun states => states.set key new) :=
    same_setting_modify_bridge world bridge fun _ => ⟨rfl, rfl⟩
  exact same.bridges other

theorem Hosts.fill (hosts : before.Hosts bridge id proto state [] world) (paired : world.Paired)
    {other : BridgeId} {key : Key} {found : SignalState} {callback : Value}
    (bound : world.boundState other (.object id) = .ok (key, found))
    (empty : found.callback = none) (function : world.isFunction callback = true) :
    before.Hosts bridge id proto (state.connected callback) []
      (((world.acquire callback).modifyStates other fun states =>
        states.set key (found.connected callback)).emit (.connected key)) := by
  obtain ⟨rfl, rfl⟩ := hosts.own bound
  have different : callback ≠ .object id := by
    rintro rfl
    obtain ⟨classId, slot, itself⟩ := hosts.itself
    simp [isFunction, functionName?, object?, Value.object?, itself] at function
  have raised := raised_acquire world callback
  have values := SignalState.values_connected empty callback
  refine hosts.rewrite raised ?_ ?_ ?_ rfl ?_ ?_
  · intro place _
    simp only [signalValues, values, List.append_nil, List.count_append]
    omega
  · rw [List.count_eq_zero, List.mem_singleton]
    exact different.symm
  · have apart := hosts.apart
    simp only [signalValues, List.append_nil, List.mem_append, not_or] at apart
    simp only [signalValues, values, List.append_nil, List.mem_append, List.mem_singleton, not_or]
    exact ⟨apart.1, different.symm, apart.2⟩
  · intro place
    refine (bridges_write _ other key _ place).trans ?_
    rw [raised.bridge]
  · exact signal_write paired bound (changes_acquire world callback) (found.connected callback)

theorem Hosts.empty (hosts : before.Hosts bridge id proto state [] world) (paired : world.Paired)
    {other : BridgeId} {key : Key} {found : SignalState} {callback : StrongRef}
    (bound : world.boundState other (.object id) = .ok (key, found))
    (filled : found.callback = some callback) (event : Event) :
    before.Hosts bridge id proto state.cleared [callback.value]
      ((world.emit event).modifyStates other fun states => states.set key found.cleared) := by
  obtain ⟨rfl, rfl⟩ := hosts.own bound
  have values := SignalState.values_cleared filled
  refine hosts.rewrite (raised_emit world event) ?_ rfl ?_ rfl ?_ ?_
  · intro place _
    simp only [signalValues, values, List.append_nil, List.count_append]
    omega
  · have apart := hosts.apart
    simp only [signalValues, values, List.append_nil, List.mem_append, not_or] at apart
    simp only [signalValues, List.mem_append, not_or]
    exact ⟨⟨apart.1, apart.2.2⟩, apart.2.1⟩
  · exact bridges_write (world.emit event) other key found.cleared
  · exact signal_write paired bound (changes_emit world event) found.cleared

theorem mild_done (world : World) (reply : Reply) : ∀ task ∈ (world.done reply).2, task.Mild := by
  simp [done, Task.Mild, Task.Follows]

/-- Whatever is called on the new handle, there is one Signal more. What it lets go is to be given
back. -/
theorem Hosts.treats (hosts : before.Hosts bridge id proto state [] world) (paired : world.Paired)
    {other : BridgeId} {outcome : Outcome} (treats : Treats world other (.object id) outcome) :
    (∃ new, before.Hosts bridge id proto new (outcome.2.flatMap Task.carried) outcome.1) ∧
      outcome.1.Paired ∧ ∀ task ∈ outcome.2, task.Mild := by
  cases treats with
  | @kept after reply same =>
      have lowered := same.lowered
      refine ⟨⟨state, hosts.lowered lowered⟩, ?_, mild_done after reply⟩
      exact paired.of_bridges lowered.tables lowered.slot_key
  | @filled key found callback reply bound empty function =>
      have raised := raised_acquire world callback
      have acquired : (world.acquire callback).Paired :=
        paired.of_bridges (fun place => by rw [raised.bridge])
          (changes_acquire world callback).slot_key
      refine ⟨⟨_, hosts.fill paired bound empty function⟩, ?_, mild_done _ reply⟩
      exact (acquired.write other key (found.connected callback)).of_bridges (fun _ => rfl)
        fun _ _ => rfl
  | @emptied key found callback token reply bound filled =>
      have told : (world.emit (.disconnecting key token)).Paired :=
        paired.of_bridges (fun _ => rfl) fun _ _ => rfl
      refine ⟨⟨_, hosts.empty paired bound filled _⟩, told.write other key found.cleared, ?_⟩
      simp [World.after, Task.Mild, Task.Follows]

/-- Where every object had a reference before, none that the Signal gives back is the last one. -/
theorem Hosts.spares (hosts : before.Hosts bridge id proto state given world)
    (counted : ∀ place, ¬before.Spent place) {place : ObjectId} {object : Object}
    (found : world.engine.heap.get? place = some object) (listed : .object place ∈ given) :
    given.count (.object place) < object.refCount := by
  have other : place ≠ id := by
    rintro rfl
    exact hosts.apart (List.mem_append_right _ listed)
  rw [hosts.others place other, Option.map_eq_some_iff] at found
  obtain ⟨old, held, rfl⟩ := found
  have some : old.refCount ≠ 0 := fun none => counted place ⟨old, held, none⟩
  simp only [List.count_append]
  omega

theorem Hosts.holds (hosts : before.Hosts bridge id proto state [] world) (paired : world.Paired)
    (place : ObjectId) :
    world.graph.holds id place = (signalValues proto state).count (.object place) := by
  obtain ⟨classId, slot, itself⟩ := hosts.itself
  have signal := hosts.signals bridge (.object id)
  rw [if_pos ⟨rfl, rfl⟩] at signal
  obtain ⟨key, bound⟩ := signal_eq_some_iff.1 signal
  simp only [graph, owned_by_of_get itself, bound_values_of_bound paired bound, signalValues,
    List.count_append]
  rfl

/-- Once the reference to the handle is given back, the handle is all the garbage there is. -/
theorem Hosts.garbage (hosts : before.Hosts bridge id proto state [] world)
    (paired : world.Paired) (counted : ∀ place, ¬before.Spent place) :
    world.graph.Garbage (fun place => [Value.object id].count (.object place)) {id} := by
  have alone : ∀ place, world.graph.heldBy {id} place =
      (signalValues proto state).count (.object place) := fun place =>
    (Finset.sum_singleton _ _).trans (hosts.holds paired place)
  refine ⟨?_, ?_⟩
  · intro place live few
    rw [Finset.mem_singleton]
    by_contra other
    obtain ⟨_, object, same, found⟩ := object_of_alive live
    cases same
    have counts : world.graph.count place = object.refCount := references_of_get place found
    rw [hosts.others place other, Option.map_eq_some_iff] at found
    obtain ⟨old, held, rfl⟩ := found
    have some : old.refCount ≠ 0 := fun none => counted place ⟨old, held, none⟩
    simp only [alone, counts, List.append_nil, count_object, if_neg other] at few
    omega
  · intro set closed
    rw [Finset.singleton_subset_iff]
    obtain ⟨classId, slot, itself⟩ := hosts.itself
    have counts : world.graph.count id = 1 := references_of_get id itself
    apply closed id
    · exact is_alive_iff.2 (by simp [kind_object, itself])
    · simp [counts]

structure Without (world : World) (id : ObjectId) (after : World) : Prop where
  gone : after.engine.heap.get? id = none
  others : ∀ place, place ≠ id → after.engine.heap.get? place =
    (world.engine.heap.get? place).map fun object =>
      { object with refCount := object.refCount - world.graph.holds id place }
  signals : ∀ bridge place, place ≠ id →
    after.signal? bridge (.object place) = world.signal? bridge (.object place)
  bridges : ∀ bridge, (after.bridge? bridge).map (fun table => (table.classId, table.config)) =
    (world.bridge? bridge).map fun table => (table.classId, table.config)
  total : after.engine.finalized = world.engine.finalized + 1

/-- Garbage was taken that is the handle alone, perhaps after the reference to it was given
back. -/
theorem without_of_swept {middle : World} {amounts : ObjectId → Nat} (paired : world.Paired)
    (lowered : Lowered world middle amounts) (swept : middle.Swept given {id} after)
    (spared : ∀ place, place ≠ id → amounts place = 0 ∧ given.count (.object place) = 0) :
    world.Without id after where
  gone := get_of_dead (swept.removed id (Finset.mem_singleton_self id))
  others := by
    intro place other
    obtain ⟨none, nothing⟩ := spared place other
    have objects := lowered.objects place
    rw [none] at objects
    cases found : world.engine.heap.get? place with
    | none => exact swept.missing place (by rw [objects, found]; rfl)
    | some object =>
        rw [found] at objects
        have survives := (swept.survives place object (by simpa using other) objects).2
        have held : middle.graph.heldBy {id} place = world.graph.holds id place := by
          rw [← lowered.graph_holds paired id]
          exact Finset.sum_singleton _ _
        rw [survives, held, nothing]
        rfl
  signals := by
    intro bridge place other
    rw [signal_of_bound_state (swept.bound bridge place (by simpa using other)),
      signal_of_bound_state (lowered.bound_state bridge (.object place))]
  bridges := fun bridge => (swept.setting.bridges bridge).trans (lowered.setting.bridges bridge)
  total := by
    rw [swept.total, lowered.total]
    rfl

/-- Where objects are reclaimed at once, a release of the handle takes it. -/
theorem Hosts.without_at_once (hosts : before.Hosts bridge id proto state [] world)
    (paired : world.Paired) (counted : ∀ place, ¬before.Spent place) {dead : Finset ObjectId}
    (swept : world.Swept [.object id] dead after) : world.Without id after := by
  have all := swept.garbage.unique (hosts.garbage paired counted)
  subst all
  refine without_of_swept paired (.refl world) swept ?_
  exact fun place other => ⟨rfl, by rw [count_object, if_neg other]⟩

/-- Where objects wait, a release of the handle and a collection take it. -/
theorem Hosts.without_in_the_end (hosts : before.Hosts bridge id proto state [] world)
    (paired : world.Paired) (counted : ∀ place, ¬before.Spent place) {middle : World}
    (lowered : Lowered world middle fun place => [Value.object id].count (.object place))
    {dead : Finset ObjectId} (swept : middle.Swept [] dead after) : world.Without id after := by
  have garbage : middle.graph.Garbage (fun _ => 0) {id} := by
    refine (hosts.garbage paired counted).given_back ?_ ?_ (lowered.graph_holds paired)
    · intro place
      exact iff_of_eq (congrArg (· = true) (lowered.alive place))
    · intro place live
      have counts : middle.graph.count place =
          world.graph.count place - [Value.object id].count (.object place) :=
        lowered.references place
      rw [counts, count_object]
      by_cases here : place = id
      · obtain ⟨classId, slot, itself⟩ := hosts.itself
        have one : world.graph.count id = 1 := references_of_get id itself
        simp [here, one]
      · simp [here]
  have all := swept.garbage.unique garbage
  subst all
  refine without_of_swept paired lowered swept ?_
  exact fun place other => ⟨by rw [count_object, if_neg other], rfl⟩

end Treating

/-- All is as it was before, and one more object was finalized. -/
structure Restored (before after : World) : Prop where
  /-- Every object is there or gone as before, with the same count, kind, slot, prototype and
  properties. -/
  objects : ∀ id, after.engine.heap.get? id = before.engine.heap.get? id
  /-- Every Signal has the callback and the link that it had. -/
  signals : ∀ bridge handle, after.signal? bridge handle = before.signal? bridge handle
  states : ∀ bridge, after.liveStates bridge = before.liveStates bridge
  total : after.engine.finalized = before.engine.finalized + 1

section Restoring

variable {before world after : World} {bridge : BridgeId} {id : ObjectId}
  {proto : Option ObjectId} {state : SignalState}

theorem Hosts.restored_objects (hosts : before.Hosts bridge id proto state [] world)
    (paired : world.Paired) (without : world.Without id after) (place : ObjectId) :
    after.engine.heap.get? place = before.engine.heap.get? place := by
  by_cases here : place = id
  · rw [here, without.gone, hosts.fresh]
  · rw [without.others place here, hosts.others place here, hosts.holds paired, Option.map_map]
    cases before.engine.heap.get? place with
    | none => rfl
    | some object => simp

theorem Hosts.restored_signals (hosts : before.Hosts bridge id proto state [] world)
    (without : world.Without id after) (other : BridgeId) (handle : Value) :
    after.signal? other handle = before.signal? other handle := by
  cases handle with
  | object place =>
      by_cases here : place = id
      · subst here
        have gone : after.isAlive (.object place) = false := by
          simp [isAlive, object?, Value.object?, without.gone]
        have fresh : before.isAlive (.object place) = false := by
          simp [isAlive, object?, Value.object?, hosts.fresh]
        rw [signal_of_dead gone, signal_of_dead fresh]
      · rw [without.signals other place here, hosts.signals, if_neg]
        rintro ⟨-, same⟩
        exact here (Value.object.inj same)
  | _ => rw [signal_of_dead rfl, signal_of_dead rfl]

end Restoring

end World

namespace Machine

section Calling

variable {machine ended : Machine} {before : World} {bridge : BridgeId} {id : ObjectId}
  {proto : Option ObjectId} {state : SignalState} {label : String} {command : Command}
  {keep : Option String} {call : Call}

/-- A call on the new handle is carried out without anything being reclaimed. -/
theorem Attended.hosts_call (attended : machine.Attended) (idle : machine.agenda = [])
    (hosts : before.Hosts bridge id proto state [] machine.world)
    (paired : machine.world.Paired) (counted : ∀ place, ¬before.Spent place)
    (calls : machine.world.request machine.read command = .call call)
    (receiver : call.receiver = .object id) (method : call.entry ≠ .construct)
    (completes : machine.Completes (.act label command keep) ended) :
    (∃ new, before.Hosts bridge id proto new [] ended.world) ∧ ended.world.Paired := by
  obtain ⟨fuel, ran, done⟩ := run_of_completes completes
  have begins := @Attended.begin machine label command keep attended idle
    (permitted_of_offered (offered_of_call calls))
  obtain ⟨world, agenda⟩ :=
    @step_submit_call machine label command keep call idle attended.calm.tidy.running calls
  rw [receiver] at world agenda
  have treats := (machine.world.entered call).treats_enter_signal call.bridge call.route
    (.object id) call.arguments method
  generalize (machine.world.entered call).enterSignal call.bridge call.entry call.route
    (.object id) call.arguments = outcome at treats world agenda
  have entered := hosts.lowered (World.lowered_entered machine.world call)
  obtain ⟨⟨new, later⟩, pairs, mild⟩ := entered.treats (paired.entered call) treats
  have carried : (machine.submit (.act label command keep)).step.carried =
      outcome.2.flatMap Task.carried := by
    rw [Machine.carried, agenda, List.flatMap_append, carried_closing, List.append_nil]
  rw [← world] at later pairs
  rw [← carried] at later
  have harmless : ∀ task ∈ (machine.submit (.act label command keep)).step.agenda, task.Mild := by
    intro task member
    rw [agenda] at member
    rcases List.mem_append.1 member with early | late
    · exact mild task early
    · exact closing_mild call label task late
  have lowered := lowered_of_run begins.calm harmless
    (fun place object found listed => later.spares counted found listed) ran done
  exact ⟨⟨new, later.lowered lowered⟩, pairs.of_bridges lowered.tables lowered.slot_key⟩

/-- A finite sequence of calls on a handle, whether they succeed or fail, in bounds at every
step. -/
inductive Uses (handle : Value) (machine : Machine) : Machine → Prop
  | none : Uses handle machine machine
  | call {used ended : Machine} {label : String} {command : Command} {keep : Option String}
      {call : Call} (uses : Uses handle machine used)
      (calls : used.world.request used.read command = .call call)
      (receiver : call.receiver = handle) (method : call.entry ≠ .construct)
      (completes : used.CompletesInBounds (.act label command keep) ended) :
      Uses handle machine ended

inductive GivesUp (handle : Value) (machine : Machine) : Machine → Prop
  | atOnce {ended : Machine} {label : String} {operand : Operand} {keep : Option String}
      (mode : machine.world.engine.mode = .immediate) (reads : machine.read operand = handle)
      (releases : machine.Completes (.act label (.object (.release operand)) keep) ended) :
      GivesUp handle machine ended
  | inTheEnd {released ended : Machine} {label again : String} {operand : Operand}
      {keep kept : Option String} (mode : machine.world.engine.mode = .deferred)
      (reads : machine.read operand = handle)
      (releases : machine.Completes (.act label (.object (.release operand)) keep) released)
      (collects : released.Completes (.act again (.object .collect) kept) ended) :
      GivesUp handle machine ended

/-- The machines that a client of Signals comes by who makes up no handles, in bounds at every
step. -/
inductive Acquainted : Machine → Prop
  | start (setting : Setting) : Acquainted (start setting)
  | serve {machine ended : Machine} {label : String} {command : Command} {keep : Option String}
      (acquainted : Acquainted machine) (permitted : command.Permitted)
      (known : (Step.act label command keep).Known machine.world)
      (completes : machine.CompletesInBounds (.act label command keep) ended) : Acquainted ended

theorem Acquainted.visited (acquainted : machine.Acquainted) : machine.Visited := by
  induction acquainted with
  | start setting => exact .start setting
  | serve _ permitted _ completes induction => exact induction.serve permitted completes

theorem Acquainted.grounded (acquainted : machine.Acquainted) : machine.Grounded := by
  induction acquainted with
  | start setting => exact grounded_start setting
  | @serve machine ended label command keep acquainted permitted known completes induction =>
      obtain ⟨idle, attended⟩ := acquainted.visited.attended
      obtain ⟨fuel, ran, -⟩ := run_of_completes completes.completes
      have begins : (machine.submit (.act label command keep)).step.Attended :=
        attended.begin idle permitted
      have first := (induction.submit known).step begins.calm.tidy.running
      rw [← ran]
      exact begins.calm.keeps Grounded first
        (fun _ calm grounded => grounded.step calm.step.tidy.running) fuel

theorem Attended.served_roomy (attended : machine.Attended) (idle : machine.agenda = [])
    (offered : command.Offered)
    (completes : machine.Completes (.act label command keep) ended) :
    (ended.agenda = [] ∧ ended.Attended) ∧ (ended.world.Roomy → machine.world.Roomy) :=
  ⟨attended.served idle (permitted_of_offered offered) completes,
    @Calm.roomy_of_completes machine ended ⟨label, command, keep⟩ attended.calm idle offered
      completes⟩

theorem Uses.attended {handle : Value} {made used : Machine} (uses : Uses handle made used)
    (idle : made.agenda = []) (attended : made.Attended) :
    (used.agenda = [] ∧ used.Attended) ∧ (used.world.Roomy → made.world.Roomy) := by
  induction uses with
  | none => exact ⟨⟨idle, attended⟩, id⟩
  | call _ calls _ _ completes induction =>
      obtain ⟨⟨waits, reached⟩, room⟩ := induction
      obtain ⟨last, larger⟩ :=
        reached.served_roomy waits (offered_of_call calls) completes.completes
      exact ⟨last, fun roomLast => room (larger roomLast)⟩

theorem GivesUp.attended {handle : Value} {used : Machine} (gives : GivesUp handle used ended)
    (idle : used.agenda = []) (attended : used.Attended) :
    ended.Attended ∧ (ended.world.Roomy → used.world.Roomy) := by
  have release : ∀ operand, (Command.object (.release operand)).Offered := fun _ => trivial
  have collect : (Command.object .collect).Offered := trivial
  cases gives with
  | atOnce _ _ releases =>
      obtain ⟨⟨-, last⟩, room⟩ := attended.served_roomy idle (release _) releases
      exact ⟨last, room⟩
  | inTheEnd _ _ releases collects =>
      obtain ⟨⟨waits, reached⟩, room⟩ := attended.served_roomy idle (release _) releases
      obtain ⟨⟨-, last⟩, larger⟩ := reached.served_roomy waits collect collects
      exact ⟨last, fun roomLast => room (larger roomLast)⟩

theorem Uses.hosts {made used : Machine} (uses : Uses (.object id) made used)
    (idle : made.agenda = []) (attended : made.Attended)
    (hosts : before.Hosts bridge id proto state [] made.world)
    (paired : made.world.Paired) (counted : ∀ place, ¬before.Spent place) :
    (∃ new, before.Hosts bridge id proto new [] used.world) ∧ used.world.Paired := by
  induction uses with
  | none => exact ⟨⟨state, hosts⟩, paired⟩
  | call uses calls receiver method completes induction =>
      obtain ⟨⟨new, more⟩, pairs⟩ := induction
      obtain ⟨waits, reached⟩ := (uses.attended idle attended).1
      exact reached.hosts_call waits more pairs counted calls receiver method completes.completes

/-- Where objects wait, nothing comes of a release but a lower count. -/
theorem Attended.lowered_release {operand : Operand} (attended : machine.Attended)
    (idle : machine.agenda = []) (mode : machine.world.engine.mode = .deferred)
    (completes : machine.Completes (.act label (.object (.release operand)) keep) ended) :
    World.Lowered machine.world ended.world fun place =>
      [machine.read operand].count (.object place) := by
  have permitted : (Command.object (.release operand)).Permitted := trivial
  obtain ⟨fuel, ran, done⟩ := run_of_completes completes
  have begins := @Attended.begin machine label _ keep attended idle permitted
  obtain ⟨world, agenda⟩ := @begin_release machine label keep operand attended.calm.tidy idle
  have mild : ∀ task ∈ (machine.submit (.act label (.object (.release operand)) keep)).step.agenda,
      task.Mild := by
    simp [agenda, Task.Mild, Task.Follows]
  have lowered := lowered_of_deferred begins.calm (by rw [world]; exact mode) mild ran done
  have carried : (machine.submit (.act label (.object (.release operand)) keep)).step.carried =
      [machine.read operand] := by
    simp [Machine.carried, agenda, Task.carried]
  rw [carried, world] at lowered
  exact lowered

/-- With its last reference the handle goes, and nothing besides. -/
theorem GivesUp.without {used : Machine} (gives : GivesUp (.object id) used ended)
    (idle : used.agenda = []) (attended : used.Attended)
    (hosts : before.Hosts bridge id proto state [] used.world)
    (paired : used.world.Paired) (counted : ∀ place, ¬before.Spent place) :
    used.world.Without id ended.world ∧ ended.world.Paired := by
  cases gives with
  | atOnce mode reads releases =>
      obtain ⟨dead, swept⟩ := attended.swept_release idle paired mode releases
      rw [reads] at swept
      exact ⟨hosts.without_at_once paired counted swept, swept.paired⟩
  | inTheEnd mode reads releases collects =>
      have lowered := attended.lowered_release idle mode releases
      rw [reads] at lowered
      have permitted : ∀ operand, (Command.object (.release operand)).Permitted := fun _ => trivial
      obtain ⟨idleReleased, attendedReleased⟩ := attended.served idle (permitted _) releases
      have pairs := paired.of_bridges lowered.tables lowered.slot_key
      obtain ⟨dead, swept, -⟩ := attendedReleased.swept_collect idleReleased pairs collects
      exact ⟨hosts.without_in_the_end paired counted lowered swept, swept.paired⟩

theorem Attended.gives_up {used : Machine} (attended : used.Attended) (idle : used.agenda = [])
    (handle : Value) : ∃ ended, GivesUp handle used ended := by
  have release : (Command.object (.release (.literal handle))).Permitted := trivial
  have collect : (Command.object .collect).Permitted := trivial
  obtain ⟨released, releases⟩ := attended.completes idle release "release" none
  cases mode : used.world.engine.mode with
  | immediate => exact ⟨released, .atOnce mode rfl releases⟩
  | deferred =>
      obtain ⟨idleReleased, attendedReleased⟩ := attended.served idle release releases
      obtain ⟨ended, collects⟩ := attendedReleased.completes idleReleased collect "collect" none
      exact ⟨ended, .inTheEnd mode rfl releases collects⟩

/-- From between two requests on, where nothing waits, a Signal is constructed whose link is alive,
and called as often as one likes. All calls come to an end, and so does the release of the handle,
which leaves no trace but in the number of objects that were finalized. -/
theorem restored_of_life {made used : Machine} {handle : Value}
    (acquainted : machine.Acquainted) (paired : machine.world.Paired)
    (quiet : machine.world.engine.mode = .deferred → machine.world.engine.backlog.items = [])
    (calls : machine.world.request machine.read command = .call call)
    (constructs : call.entry = .construct)
    (linked : ∀ id, call.arguments = [.object id] → machine.world.isAlive (.object id) = true)
    (completes : machine.CompletesInBounds (.act label command keep) made)
    (returned : made.frame.reply = .value handle) (uses : Uses handle made used) :
    (∀ label command keep call, used.world.request used.read command = .call call →
        ∃ next, used.Completes (.act label command keep) next) ∧
      (∃ ended, GivesUp handle used ended) ∧
      ∀ ended, GivesUp handle used ended → ended.world.Roomy →
        machine.world.Restored ended.world := by
  obtain ⟨idle, attended⟩ := acquainted.visited.attended
  obtain ⟨⟨madeIdle, reached⟩, roomBefore⟩ :=
    attended.served_roomy idle (offered_of_call calls) completes.completes
  obtain ⟨⟨usedIdle, usedAttended⟩, roomMade⟩ := uses.attended madeIdle reached
  refine ⟨?_, usedAttended.gives_up usedIdle handle, ?_⟩
  · intro label command keep call calls
    exact usedAttended.completes usedIdle (permitted_of_offered (offered_of_call calls)) label keep
  · intro ended gives room
    obtain ⟨last, roomUsed⟩ := gives.attended usedIdle usedAttended
    have empty : machine.world.engine.backlog.items = [] := by
      cases mode : machine.world.engine.mode with
      | immediate => exact attended.prompt mode
      | deferred => exact quiet mode
    have counted := attended.unspent idle empty
    -- the construction adds a Signal, the calls keep it, and it goes with its handle
    obtain ⟨id, proto, rfl, hosts, pairs⟩ := attended.hosts_construct idle acquainted.grounded.world
      paired calls constructs linked completes.completes returned (roomMade (roomUsed room))
    obtain ⟨⟨state, later⟩, usedPairs⟩ := uses.hosts madeIdle reached hosts pairs counted
    obtain ⟨without, endedPairs⟩ := gives.without usedIdle usedAttended later usedPairs counted
    have signals := later.restored_signals without
    refine ⟨later.restored_objects usedPairs without, signals, ?_, ?_⟩
    · refine World.live_states_of_signals attended.calm.tidy last.calm.tidy paired
        endedPairs (roomBefore (roomMade (roomUsed room))) room ?_ signals
      exact fun id => (without.bridges id).trans (later.bridges id)
    · rw [without.total, later.total]

end Calling

theorem Ledgered.acquainted {machine : Machine} {owned : List Value}
    (ledgered : Ledgered machine owned) : machine.Acquainted := by
  induction ledgered with
  | start setting => exact .start setting
  | @serve _ _ _ label _ keep _ honest completes induction =>
      exact induction.serve (permitted_of_offered honest.offered)
        (known_of_honest honest label keep) completes

def listening : Machine :=
  runAll 20 (start .deferred)
    [.act "install" (.bridge (.install "signals" {})) none,
      .act "function" (.object (.createFunction "listener")) (some "listener")]

theorem ledgered_listening : Ledgered listening [.object ⟨1⟩] :=
  (Ledgered.start .deferred).run_all (by simp [Step.Offered, Command.Offered]) rfl

theorem Uses.request {handle : Value} {machine used ended : Machine} {call : Call}
    (uses : Uses handle machine used) (label : String) (command : Command)
    (keep : Option String) (fuel : Nat)
    (calls : used.world.request used.read command = .call call) (receiver : call.receiver = handle)
    (method : call.entry ≠ .construct)
    (ran : (used.submit (.act label command keep)).run fuel = ended)
    (checked : checkBounds fuel (used.submit (.act label command keep)) = true) :
    Uses handle machine ended := by
  subst ran
  exact uses.call calls receiver method (completes_of_check checked)

def listened : Machine :=
  runAll 20 listening
    [.act "construct" (.bridge (.enter "signals" .construct (.literal .undefined)
      [.register "listener"])) (some "signal")]

/-- It is connected to its Signal. A second attempt fails, and the slot is emptied and filled
again. -/
def heard : Machine :=
  runAll 20 listened
    [.act "connect" (.bridge (.enter "signals" .connect (.register "signal")
        [.register "listener"])) none,
      .act "again" (.bridge (.enter "signals" .connect (.register "signal")
        [.register "listener"])) none,
      .act "disconnect" (.bridge (.enter "signals" .disconnect (.register "signal")
        [.literal (.int 1)])) none,
      .act "connect" (.bridge (.enter "signals" .connect (.register "signal")
        [.register "listener"])) none]

theorem uses_heard : Uses (.object ⟨2⟩) listened heard := by
  have begun : Uses (.object ⟨2⟩) listened listened := .none
  have connected := begun.request "connect"
    (.bridge (.enter "signals" .connect (.register "signal") [.register "listener"])) none 20
    rfl rfl nofun rfl rfl
  have again := connected.request "again"
    (.bridge (.enter "signals" .connect (.register "signal") [.register "listener"])) none 20
    rfl rfl nofun rfl rfl
  have disconnected := again.request "disconnect"
    (.bridge (.enter "signals" .disconnect (.register "signal") [.literal (.int 1)])) none 20
    rfl rfl nofun rfl rfl
  exact disconnected.request "connect"
    (.bridge (.enter "signals" .connect (.register "signal") [.register "listener"])) none 20
    rfl rfl nofun rfl rfl

/-- The slot is filled when the handle is given up. -/
theorem restored_of_heard : ∃ ended, GivesUp (.object ⟨2⟩) heard ended ∧
    listening.world.references ⟨1⟩ = 1 ∧ heard.world.references ⟨1⟩ = 3 ∧
    heard.world.liveStates ⟨0⟩ = 1 ∧ listening.world.Restored ended.world := by
  have completes : listening.CompletesInBounds
      (.act "construct" (.bridge (.enter "signals" .construct (.literal .undefined)
        [.register "listener"])) (some "signal")) listened := completes_of_check rfl
  have gives : GivesUp (.object ⟨2⟩) heard _ :=
    @GivesUp.inTheEnd _ heard _ _ "release" "collect" (.register "signal") none none rfl rfl
      ⟨20, rfl, rfl⟩ ⟨20, rfl, rfl⟩
  refine ⟨_, gives, rfl, rfl, rfl, ?_⟩
  refine (restored_of_life ledgered_listening.acquainted (ledgered_listening.paired ?_)
    (fun _ => rfl) rfl rfl ?_ completes rfl uses_heard).2.2 _ gives ?_
  · intro id bridge found
    cases World.bridge_of_single rfl found
    cases found
    decide
  · intro id same
    cases same
    rfl
  · intro id bridge found
    cases World.bridge_of_single rfl found
    cases found
    decide

end Machine

end ScriptSignal
