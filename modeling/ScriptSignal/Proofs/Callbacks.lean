import ScriptSignal.Proofs.Frames
import ScriptSignal.Proofs.NewSignals
import ScriptSignal.Proofs.Shedding

/-!
# What connecting and disconnecting change

To connect a callback writes one state and counts one reference. To disconnect it writes that
state again, and then gives one reference back, with all that comes of it; the tables are not
looked into meanwhile. Where the reference is not the last one nothing comes of it, so a
connection that is undone leaves no trace. No other Signal is written in either case.
-/

namespace ScriptSignal

set_option autoImplicit false

theorem Slab.set_set_self {α : Type*} {slab : Slab α} {key : Key} {old : α}
    (held : slab.get? key = some old) (entry : α) : (slab.set key entry).set key old = slab := by
  have present : slab.contains key = true := contains_iff.2 ⟨old, held⟩
  have still : (slab.set key entry).contains key = true :=
    contains_iff.2 ⟨entry, by rw [get_set present, if_pos rfl]⟩
  have slot := get_eq_some_iff.1 held
  unfold slot? at slot
  obtain ⟨inside, place⟩ := Array.getElem?_eq_some_iff.1 slot
  rw [set, if_pos still, set, if_pos present]
  have slots : (slab.slots.setIfInBounds key.index.toNat ⟨key.generation, some entry⟩).setIfInBounds
      key.index.toNat ⟨key.generation, some old⟩ = slab.slots := by
    rw [Array.setIfInBounds_setIfInBounds, ← place]
    apply Array.ext (by simp)
    intro index _ below
    by_cases here : key.index.toNat = index
    · subst here
      simp
    · exact Array.getElem_setIfInBounds_ne _ here
  simp only [slots]

theorem Heap.ext_of_get {first second : Heap}
    (size : first.places.size = second.places.size)
    (objects : ∀ id, first.get? id = second.get? id) : first = second := by
  obtain ⟨first⟩ := first
  obtain ⟨second⟩ := second
  congr 1
  apply Array.ext size
  intro index inside also
  have same := objects ⟨index⟩
  simpa [get?, inside, also] using same

structure Engine.Counted (before : Engine) (value : Value) (after : Engine) : Prop where
  objects : ∀ id, after.heap.get? id = (before.heap.get? id).map fun object =>
    { object with refCount := object.refCount + if value = .object id then 1 else 0 }
  size : after.heap.places.size = before.heap.places.size
  rest : after = { before with heap := after.heap }

/-- What was before one more reference was counted is known from what is afterwards. -/
theorem Engine.Counted.unique {before other after : Engine} {value : Value}
    (counted : before.Counted value after) (also : other.Counted value after) :
    before = other := by
  have heaps : before.heap = other.heap := by
    apply Heap.ext_of_get (counted.size.symm.trans also.size)
    intro id
    have same := (counted.objects id).symm.trans (also.objects id)
    cases found : before.heap.get? id with
    | none =>
        rw [found, Option.map_none, eq_comm, Option.map_eq_none_iff] at same
        exact same.symm
    | some object =>
        rw [found, Option.map_some, eq_comm, Option.map_eq_some_iff] at same
        obtain ⟨held, reached, equal⟩ := same
        rw [reached]
        simp only [Object.mk.injEq] at equal
        obtain ⟨counts, kind, proto, properties⟩ := equal
        cases object
        cases held
        simp only [Option.some.injEq, Object.mk.injEq]
        exact ⟨Nat.add_right_cancel counts.symm, kind.symm, proto.symm, properties.symm⟩
  have rest := counted.rest.symm.trans also.rest
  cases before
  cases other
  simp_all

namespace World

section Rewiring

variable {before world after : World} {id : BridgeId} {handle : Value} {key : Key}
  {state old : SignalState} {value : Value} {table : Bridge}

theorem Raised.counted
    (raised : Raised before after fun id => [value].count (.object id)) :
    before.engine.Counted value after.engine where
  objects := by
    intro id
    rw [raised.objects]
    simp only [List.count_singleton, beq_iff_eq]
  size := raised.size
  rest := raised.engine

/-- Worlds with the same parts differ in nothing but what was told. -/
theorem eq_of_parts {client : Client} (engine : after.engine = before.engine)
    (bridges : after.bridges = before.bridges) (clients : after.client = client) :
    after = { before with client, events := after.events } := by
  obtain ⟨_, _, _, _⟩ := after
  simp only at engine bridges clients
  subst engine bridges clients
  rfl

theorem bridges_ext (same : ∀ id, after.bridge? id = before.bridge? id) :
    after.bridges = before.bridges := by
  apply Array.ext_getElem?
  exact fun index => same ⟨index⟩

/-- The state of one Signal has been written, and no other. -/
structure Rewired (before : World) (id : BridgeId) (handle : Value) (key : Key)
    (state : SignalState) (after : World) : Prop where
  itself : after.boundState id handle = .ok (key, state)
  others : ∀ other value, ¬(other = id ∧ value = handle) →
    after.boundState other value = before.boundState other value
  tables : ∀ other, after.bridge? other = (before.bridge? other).map fun bridge =>
    { bridge with
      states := if other = id then bridge.states.set key state else bridge.states }

theorem bridge_write (world : World) (id : BridgeId) (key : Key) (state : SignalState)
    (other : BridgeId) :
    (world.modifyStates id fun states => states.set key state).bridge? other =
      (world.bridge? other).map fun bridge =>
        { bridge with
          states := if other = id then bridge.states.set key state else bridge.states } := by
  rw [bridge_modify_states]
  split
  · rename_i here
    rw [here]
  · simp

/-- The handle is bound to the state by a key that no other handle has. -/
structure Owns (world : World) (id : BridgeId) (handle : Value) (key : Key)
    (state : SignalState) : Prop where
  bound : world.boundState id handle = .ok (key, state)
  alone : ∀ value, world.boundKey id value = .ok key → value = handle

theorem OneHandleOneState.owns (together : before.OneHandleOneState table.classId id)
    (found : before.bridge? id = some table)
    (bound : before.boundState id handle = .ok (key, state)) : before.Owns id handle key state where
  bound := bound
  alone := by
    have slotted : ∀ {value : Value}, before.boundKey id value = .ok key → ∃ place,
        value = .object place ∧ (∃ bits, before.BoundTo table.classId place bits) ∧
          before.slotKey table.classId place = key := by
      intro value reached
      obtain ⟨other, foundOther, slot⟩ := bound_key_eq_ok.1 reached
      cases found.symm.trans foundOther
      cases value with
      | object place =>
          obtain ⟨bits, boundTo, -⟩ := slot_key_object_eq_some_iff.1 slot
          exact ⟨place, rfl, ⟨bits, boundTo⟩, by simp [slotKey, slot]⟩
      | _ => cases slot
    intro value also
    obtain ⟨first, rfl, firstBound, firstKey⟩ := slotted (bound_state_eq_ok_iff.1 bound).1
    obtain ⟨second, rfl, secondBound, secondKey⟩ := slotted also
    rw [together.bijection.injOn firstBound secondBound (firstKey.trans secondKey.symm)]

theorem Owns.of_still (owns : before.Owns id handle key state) (still : Still before after) :
    after.Owns id handle key state := by
  refine ⟨(still.bound_state id handle).trans owns.bound, fun value reached => ?_⟩
  rw [still.bound_key] at reached
  exact owns.alone value reached

theorem Owns.rewired (owns : before.Owns id handle key old)
    (tables : ∀ other, after.bridge? other = (before.bridge? other).map fun bridge =>
      { bridge with
        states := if other = id then bridge.states.set key state else bridge.states })
    (slots : ∀ value classId, after.slotKey? value classId = before.slotKey? value classId) :
    before.Rewired id handle key state after := by
  obtain ⟨reached, held⟩ := bound_state_eq_ok_iff.1 owns.bound
  obtain ⟨table, found, slot⟩ := bound_key_eq_ok.1 reached
  have present : table.states.contains key = true := by
    rw [contains_of_state found, held]
    rfl
  have keys : ∀ other value, after.boundKey other value = before.boundKey other value := by
    intro other value
    unfold boundKey
    rw [tables other]
    cases before.bridge? other <;> simp [slots]
  have states : ∀ other otherKey, after.state? other otherKey =
      if other = id ∧ otherKey = key then some state else before.state? other otherKey := by
    intro other otherKey
    unfold state?
    rw [tables other]
    by_cases here : other = id
    · subst here
      simp [found, Slab.get_set present]
    · simp [here]
  refine ⟨?_, ?_, tables⟩
  · rw [bound_state_eq_ok_iff, keys, states, if_pos ⟨rfl, rfl⟩]
    exact ⟨reached, rfl⟩
  · intro other value apart
    unfold boundState
    rw [keys]
    cases slotted : before.boundKey other value with
    | error failure => rfl
    | ok otherKey =>
        have elsewhere : ¬(other = id ∧ otherKey = key) := by
          rintro ⟨rfl, rfl⟩
          exact apart ⟨rfl, owns.alone value slotted⟩
        simp only [states, if_neg elsewhere]

theorem Rewired.owns (rewired : before.Rewired id handle key state after)
    (owns : before.Owns id handle key old) : after.Owns id handle key state := by
  refine ⟨rewired.itself, fun value reached => ?_⟩
  by_contra other
  have held := (bound_state_eq_ok_iff.1 rewired.itself).2
  have bound := rewired.others id value (fun both => other both.2)
  rw [bound_state_eq_ok_iff.2 ⟨reached, held⟩] at bound
  exact other (owns.alone value (bound_state_eq_ok_iff.1 bound.symm).1)

theorem Rewired.config (rewired : before.Rewired id handle key state after) (other : BridgeId) :
    after.config other = before.config other := by
  unfold World.config
  rw [rewired.tables]
  cases before.bridge? other <;> rfl

/-- To write over a state and to write it back leaves the tables as they were. -/
theorem Rewired.restored (rewired : before.Rewired id handle key state world)
    (back : world.Rewired id handle key old after) (owns : before.Owns id handle key old) :
    after.bridges = before.bridges := by
  apply bridges_ext
  intro other
  rw [back.tables, rewired.tables, Option.map_map]
  obtain ⟨reached, held⟩ := bound_state_eq_ok_iff.1 owns.bound
  cases found : before.bridge? other with
  | none => rfl
  | some bridge =>
      by_cases here : other = id
      · subst here
        simp only [state?, found, Option.bind_some] at held
        simp [Slab.set_set_self held]
      · simp [here]

theorem slot_key_of_engine (same : after.engine = before.engine) (value : Value)
    (classId : ClassId) : after.slotKey? value classId = before.slotKey? value classId := by
  unfold slotKey? object?
  rw [same]

theorem slot_key_of_raised {more : ObjectId → Nat} (raised : Raised before after more)
    (value : Value) (classId : ClassId) :
    after.slotKey? value classId = before.slotKey? value classId := by
  apply slot_key_of_kind
  cases value with
  | object id =>
      rw [kind_object, kind_object, raised.objects]
      simp [Option.map_map, Function.comp_def]
  | _ => rfl

theorem bound_state_of_raised {more : ObjectId → Nat} (raised : Raised before after more)
    (id : BridgeId) (value : Value) : after.boundState id value = before.boundState id value :=
  bound_state_of_same (by rw [raised.bridge]) (slot_key_of_raised raised value)

theorem Unchanged.bound_state (same : Unchanged before after) (id : BridgeId) (value : Value) :
    after.boundState id value = before.boundState id value := by
  apply bound_state_of_same
  · unfold bridge?
    rw [same.bridges]
  · exact slot_key_of_engine same.engine value

end Rewiring

def attaching (world : World) (id : BridgeId) (key : Key) (state : SignalState)
    (callback : Value) : Outcome :=
  (((world.acquire callback).modifyStates id fun states =>
    states.set key (state.connected callback)).emit (.connected key)).done
      (.value (.int connectionToken))

def detaching (world : World) (id : BridgeId) (key : Key) (state : SignalState)
    (callback : StrongRef) (token : Int32) : Outcome :=
  ((world.emit (.disconnecting key token)).modifyStates id fun states =>
    states.set key state.cleared).after
      [.drop callback, .report (.disconnected key)] (.value (.bool true))

/-- What a call of `connect` or `disconnect` on a bound handle comes to, with its answer. -/
inductive Touches (world : World) (id : BridgeId) (route : Route) (key : Key)
    (state : SignalState) : Entry → List Value → Outcome → Prop
  | failed {entry : Entry} {arguments : List Value} {after : World} {failure : Failure}
      (same : world.Unchanged after) :
      Touches world id route key state entry arguments
        (after.done (route.reply (.error failure)))
  | idle {arguments : List Value} {after : World} (same : world.Unchanged after) :
      Touches world id route key state .disconnect arguments
        (after.done (.value (.bool false)))
  | connected {callback : Value} (empty : state.callback = none) :
      Touches world id route key state .connect [callback]
        (world.attaching id key state callback)
  | detached {arguments : List Value} {callback : StrongRef} {token : Int32}
      (filled : state.callback = some callback) :
      Touches world id route key state .disconnect arguments
        (world.detaching id key state callback token)

section Touching

variable {world : World} {id : BridgeId} {handle : Value} {key : Key} {state : SignalState}

theorem rewired_attaching (owns : world.Owns id handle key state) (callback : Value) :
    world.Rewired id handle key (state.connected callback)
      (world.attaching id key state callback).1 := by
  have raised := raised_acquire world callback
  have slots := slot_key_of_raised raised
  refine owns.rewired (fun other => ?_) slots
  rw [← raised.bridge]
  exact bridge_write (world.acquire callback) id key (state.connected callback) other

theorem rewired_detaching (owns : world.Owns id handle key state) (callback : StrongRef)
    (token : Int32) :
    world.Rewired id handle key state.cleared (world.detaching id key state callback token).1 :=
  owns.rewired (bridge_write world id key state.cleared) fun _ _ => rfl

theorem touches_connect (bound : world.boundState id handle = .ok (key, state)) (route : Route)
    (arguments : List Value) :
    Touches world id route key state .connect arguments
      (world.connect id route handle arguments) := by
  unfold connect
  split
  · rename_i callback
    cases found : world.connectable id handle callback with
    | error failure => exact .failed (.refl world)
    | ok reached =>
        obtain ⟨otherKey, otherState⟩ := reached
        obtain ⟨-, also, -, empty⟩ := bound_state_of_connectable found
        cases bound.symm.trans also
        simp only [Route.reply_ok]
        exact .connected empty
  · exact .failed (.refl world)

theorem disconnect_token_of_filled (bound : world.boundState id handle = .ok (key, state))
    (clears : (world.config id).disconnect = .clearSlot) {callback : StrongRef}
    (filled : state.callback = some callback) (route : Route) (token : Int32) :
    world.disconnectToken id route handle token = world.detaching id key state callback token := by
  obtain ⟨reached, held⟩ := bound_state_eq_ok_iff.1 bound
  have still : (world.emit (.disconnecting key token)).state? id key = some state := held
  simp only [disconnectToken, clears, reached, still, filled, Route.reply_ok]
  rfl

theorem touches_disconnect_token (bound : world.boundState id handle = .ok (key, state))
    (route : Route) (arguments : List Value) (token : Int32) :
    Touches world id route key state .disconnect arguments
      (world.disconnectToken id route handle token) := by
  cases clears : (world.config id).disconnect with
  | alwaysFalse =>
      simp only [disconnectToken, clears, Route.reply_ok]
      exact .idle (.refl world)
  | clearSlot =>
      cases filled : state.callback with
      | some callback =>
          rw [disconnect_token_of_filled bound clears filled]
          exact .detached filled
      | none =>
          obtain ⟨reached, held⟩ := bound_state_eq_ok_iff.1 bound
          have still : (world.emit (.disconnecting key token)).state? id key = some state := held
          simp only [disconnectToken, clears, reached, still, filled, Route.reply_ok]
          exact .idle (unchanged_emit world _)

theorem touches_disconnect (bound : world.boundState id handle = .ok (key, state)) (route : Route)
    (arguments : List Value) :
    Touches world id route key state .disconnect arguments
      (world.disconnect id route handle arguments) := by
  unfold disconnect
  split
  · split
    · exact touches_disconnect_token bound route _ _
    · exact .failed (.refl world)
  · exact .failed (.refl world)

/-- Whatever the two calls come to, no other Signal is written, and no script is run before
references are given back. -/
theorem Touches.spares {entry : Entry} {arguments : List Value} {outcome : Outcome} {route : Route}
    (touches : Touches world id route key state entry arguments outcome)
    (owns : world.Owns id handle key state) :
    (∀ other value, ¬(other = id ∧ value = handle) →
        outcome.1.boundState other value = world.boundState other value) ∧
      (∀ task ∈ outcome.2, task.Sheds) ∧
      outcome.1.engine.registry = world.engine.registry := by
  cases touches with
  | failed same =>
      exact ⟨fun other value _ => same.bound_state other value, by simp [done, Task.Sheds],
        congrArg Engine.registry same.engine⟩
  | idle same =>
      exact ⟨fun other value _ => same.bound_state other value, by simp [done, Task.Sheds],
        congrArg Engine.registry same.engine⟩
  | @connected callback empty =>
      exact ⟨(rewired_attaching owns callback).others, by simp [attaching, done, Task.Sheds],
        (congrArg Engine.registry (raised_acquire world callback).engine).trans rfl⟩
  | @detached arguments callback token filled =>
      exact ⟨(rewired_detaching owns callback token).others,
        by simp [detaching, after, Task.Sheds], rfl⟩

end Touching

/-- A callback is connected, and nothing else is different. -/
structure Connected (before : World) (call : Call) (key : Key) (state : SignalState)
    (callback : Value) (keep : Option String) (after : World) : Prop where
  rewired : before.Rewired call.bridge call.receiver key (state.connected callback) after
  counted : before.engine.Counted callback after.engine
  /-- The client has come by the answer at most. -/
  client : after.client = before.client.keeping keep [.int connectionToken]

/-- A callback is disconnected that somebody else refers to, and nothing else is different. -/
structure Disconnected (before : World) (call : Call) (key : Key) (state : SignalState)
    (callback : Value) (keep : Option String) (after : World) : Prop where
  rewired : before.Rewired call.bridge call.receiver key state.cleared after
  counted : after.engine.Counted callback before.engine
  client : after.client = before.client.keeping keep [.bool true]

section Calling

variable {before world after : World} {call : Call} {key : Key} {state old : SignalState}
  {callback : Value} {keep : Option String}

theorem still_entered (world : World) (call : Call) : Still world (world.entered call) := by
  unfold entered
  split
  · exact still_begin_call world call.bridge
  · exact .refl world

theorem still_exited (world : World) (call : Call) : Still world (world.exited call) := by
  unfold exited
  split
  · refine ⟨rfl, rfl, fun other => ?_⟩
    rw [bridge_modify]
    split
    · rename_i same
      rw [same, Option.map_map]
      rfl
    · rfl
  · exact .refl world

theorem config_entered (world : World) (call : Call) (id : BridgeId) :
    (world.entered call).config id = world.config id := by
  unfold entered
  split
  · exact config_begin_call world call.bridge id
  · rfl

theorem touches_calling (bound : before.boundState call.bridge call.receiver = .ok (key, state))
    (method : call.entry = .connect ∨ call.entry = .disconnect) :
    Touches (before.entered call) call.bridge call.route key state call.entry call.arguments
      (before.calling call) := by
  have begun := ((still_entered before call).bound_state _ _).trans bound
  unfold calling
  rcases method with entry | entry <;> rw [entry]
  · exact touches_connect begun call.route call.arguments
  · exact touches_disconnect begun call.route call.arguments

theorem calling_of_filled (owns : before.Owns call.bridge call.receiver key state)
    (entry : call.entry = .disconnect) {token : Value} (given : call.arguments = [token])
    (number : token.isNumber = true) (clears : (before.config call.bridge).disconnect = .clearSlot)
    {held : StrongRef} (filled : state.callback = some held) :
    ∃ slot, before.calling call =
      (before.entered call).detaching call.bridge key state held slot := by
  have begun := (owns.of_still (still_entered before call)).bound
  have same : ((before.entered call).config call.bridge).disconnect = .clearSlot := by
    rw [config_entered, clears]
  cases token with
  | int slot =>
      refine ⟨slot, ?_⟩
      simp only [calling, entry, enterSignal, disconnect, given, Value.toInt32]
      exact disconnect_token_of_filled begun same filled call.route slot
  | float slot =>
      refine ⟨slot.toInt32, ?_⟩
      simp only [calling, entry, enterSignal, disconnect, given, Value.toInt32]
      exact disconnect_token_of_filled begun same filled call.route slot.toInt32
  | _ => cases number

/-- A state that a call has written is so still when the call is over and answered. -/
theorem Rewired.exited (rewired : (before.entered call).Rewired call.bridge call.receiver key state
    world) (client : Client) :
    before.Rewired call.bridge call.receiver key state ({ world with client }.exited call) where
  itself := ((still_exited _ call).bound_state _ _).trans rewired.itself
  others := by
    intro other value apart
    rw [(still_exited _ call).bound_state, ← (still_entered before call).bound_state]
    exact rewired.others other value apart
  tables := @bridge_exited before { world with client } call (fun id states =>
    if id = call.bridge then states.set key state else states) rewired.tables

theorem connected_of_attaching
    (owns : before.Owns call.bridge call.receiver key state)
    (ends : after = { ((before.entered call).attaching call.bridge key state callback).1 with
      client := before.client.keeping keep [.int connectionToken] }.exited call) :
    before.Connected call key state callback keep after := by
  have entered := still_entered before call
  have exited := still_exited
    { ((before.entered call).attaching call.bridge key state callback).1 with
      client := before.client.keeping keep [.int connectionToken] } call
  rw [← ends] at exited
  refine ⟨?_, ?_, exited.client⟩
  · rw [ends]
    exact (rewired_attaching (owns.of_still entered) callback).exited _
  · have counted := (raised_acquire (before.entered call) callback).counted
    rw [entered.engine] at counted
    rw [exited.engine]
    exact counted

/-- Once the callback is given back, which others refer to, the call is over. -/
theorem disconnected_of_released {emptied : World}
    (rewired : (before.entered call).Rewired call.bridge call.receiver key state.cleared emptied)
    (engine : emptied.engine = before.engine) (client : emptied.client = before.client)
    (raised : Raised world emptied fun id => [callback].count (.object id))
    (ends : after = { world with client := world.client.keeping keep [.bool true] }.exited call) :
    before.Disconnected call key state callback keep after := by
  have exited := still_exited
    { world with client := world.client.keeping keep [.bool true] } call
  rw [← ends] at exited
  refine ⟨?_, ?_, ?_⟩
  · rw [ends]
    refine Rewired.exited ⟨?_, ?_, ?_⟩ _
    · rw [← bound_state_of_raised raised]
      exact rewired.itself
    · intro other value apart
      rw [← bound_state_of_raised raised]
      exact rewired.others other value apart
    · intro other
      rw [← rewired.tables, raised.bridge]
  · have counted := raised.counted
    rw [engine] at counted
    rw [exited.engine]
    exact counted
  · rw [exited.client, ← client, raised.client]

theorem eq_of_unchanged (same : (before.entered call).Unchanged world) {client : Client}
    (ends : after = { world with client }.exited call) :
    after = { before with client, events := after.events } := by
  have exited := still_exited { world with client } call
  rw [← ends] at exited
  have bridges : after.bridges = before.bridges := by
    apply bridges_ext
    intro id
    have tables : ∀ other, ({ world with client } : World).bridge? other =
        (before.entered call).bridge? other := by
      intro other
      unfold bridge?
      rw [← same.bridges]
    have exits := @bridge_exited before { world with client } call (fun _ states => states)
      (fun other => by rw [tables]; simp) id
    rw [ends, exits]
    simp
  have engine : after.engine = before.engine :=
    exited.engine.trans (same.engine.trans (still_entered before call).engine)
  exact eq_of_parts engine bridges exited.client

end Calling

end World

namespace Machine

section Calls

variable {machine later : Machine} {rest : List Task} {label : String}
  {keep keepNext : Option String} {call : Call} {key : Key} {state : SignalState} {value : Value}

theorem Returns.reply_of_after (returns : machine.Returns label call rest later value)
    (running : machine.world.engine.running = true) (calls : machine.Calls label keep call rest)
    {after : World} {tasks : List Task} {reply : Reply}
    (leaves : machine.world.calling call = after.after tasks reply) : reply = .value value := by
  obtain ⟨-, agenda, -⟩ := step_call running calls
  have waits : machine.step.agenda =
      tasks ++ .answer reply :: (call.closing ++ .finish label :: rest) := by
    rw [agenda, leaves]
    simp [World.after]
  have answered := returns.finishes.answered waits
  rw [returns.reply] at answered
  exact answered.symm

theorem Returns.reply_of_done (returns : machine.Returns label call rest later value)
    (running : machine.world.engine.running = true) (calls : machine.Calls label keep call rest)
    {after : World} {reply : Reply} (leaves : machine.world.calling call = after.done reply) :
    reply = .value value :=
  @reply_of_after _ _ _ _ keep _ value returns running calls after [] reply leaves

theorem finishes_unchanged (running : machine.world.engine.running = true)
    (calls : machine.Calls label keep call rest) {after : World}
    (same : (machine.world.entered call).Unchanged after)
    (leaves : machine.world.calling call = after.done (.value value)) :
    ∃ last, Finishes rest machine last ∧ last.frame.reply = .value value ∧
      last.world =
        { machine.world with
          client := machine.world.client.keeping keep [value]
          events := last.world.events } := by
  have client := same.client.trans (World.still_entered machine.world call).client
  obtain ⟨last, finishes, reply, ends⟩ := finishes_call_done running calls leaves client
  exact ⟨last, finishes, reply, World.eq_of_unchanged same ends⟩

theorem finishes_connected (running : machine.world.engine.running = true)
    (calls : machine.Calls label keep call rest)
    (owns : machine.world.Owns call.bridge call.receiver key state) {callback : Value}
    (leaves : machine.world.calling call =
      (machine.world.entered call).attaching call.bridge key state callback) :
    ∃ last, Finishes rest machine last ∧ last.frame.reply = .value (.int connectionToken) ∧
      machine.world.Connected call key state callback keep last.world := by
  have client := (World.raised_acquire (machine.world.entered call) callback).client.trans
    (World.still_entered machine.world call).client
  obtain ⟨last, finishes, reply, ends⟩ := finishes_call_done running calls leaves client
  exact ⟨last, finishes, reply, World.connected_of_attaching owns ends⟩

structure Emptied (machine : Machine) (call : Call) (key : Key) (state : SignalState)
    (emptied : World) : Prop where
  rewired : (machine.world.entered call).Rewired call.bridge call.receiver key state.cleared emptied
  engine : emptied.engine = machine.world.engine
  client : emptied.client = machine.world.client

def giving (machine : Machine) (world : World) (keep : Option String) (value : Value) : Machine :=
  { machine with world, agenda := [.release value], frame.keep := keep }

def detached (call : Call) (key : Key) (label : String) (rest : List Task) : List Task :=
  .report (.disconnected key) :: .answer (.value (.bool true)) ::
    (call.closing ++ .finish label :: rest)

/-- Two steps after a call that detaches a callback the reference is to be given back. -/
theorem emptied_of_detaching (running : machine.world.engine.running = true)
    (calls : machine.Calls label keep call rest)
    (owns : machine.world.Owns call.bridge call.receiver key state) {callback : StrongRef}
    {token : Int32}
    (leaves : machine.world.calling call =
      (machine.world.entered call).detaching call.bridge key state callback token) :
    machine.step.agenda = .drop callback :: detached call key label rest ∧
      machine.Emptied call key state machine.step.step.world ∧
      machine.step.step =
        { machine.giving machine.step.step.world keep callback.value with
          agenda := .release callback.value :: detached call key label rest } := by
  have entered := World.still_entered machine.world call
  have stepped := step_call_eq running calls
  rw [leaves] at stepped
  have agenda : machine.step.agenda = .drop callback :: detached call key label rest := by
    rw [stepped]
    rfl
  have still : machine.step.world.engine.running = true := by
    rw [stepped]
    exact (congrArg Engine.running entered.engine).trans running
  have twice : machine.step.step =
      { machine.step with
        world := machine.step.world.emit (.released callback.value)
        agenda := .release callback.value :: detached call key label rest } := by
    rw [step_of_cons agenda]
    simp only [carryOut, act, World.dropReference, still, if_true]
    rfl
  have world : machine.step.step.world = ((machine.world.entered call).detaching call.bridge key
      state callback token).1.emit (.released callback.value) := by
    rw [twice, stepped]
  have rewired := World.rewired_detaching (owns.of_still entered) callback token
  refine ⟨agenda, ⟨?_, ?_, ?_⟩, ?_⟩
  · rw [world]
    exact ⟨rewired.itself, rewired.others, rewired.tables⟩
  · rw [world]
    exact entered.engine
  · rw [world]
    exact entered.client
  · rw [twice, stepped]
    rfl

theorem finishes_shared (running : machine.world.engine.running = true)
    (calls : machine.Calls label keep call rest)
    (owns : machine.world.Owns call.bridge call.receiver key state) {callback : StrongRef}
    {token : Int32}
    (leaves : machine.world.calling call =
      (machine.world.entered call).detaching call.bridge key state callback token)
    (shared : ∀ object, machine.world.object? callback.value = some object →
      2 ≤ object.refCount) :
    ∃ last, Finishes rest machine last ∧ last.frame.reply = .value (.bool true) ∧
      machine.world.Disconnected call key state callback.value keep last.world := by
  obtain ⟨first, emptied, second⟩ := emptied_of_detaching running calls owns leaves
  have agenda : machine.step.step.agenda =
      .release callback.value :: detached call key label rest := by
    rw [second]
  have frame : machine.step.step.frame.keep = keep := by
    rw [second]
    rfl
  have counted : ∀ object, machine.step.step.world.object? callback.value = some object →
      2 ≤ object.refCount := by
    intro object found
    unfold World.object? at found
    rw [emptied.engine] at found
    exact shared object found
  obtain ⟨nothing, raised⟩ := World.raised_of_shared counted
  obtain ⟨worldThrice, agendaThrice, frameThrice⟩ := step_of_native agenda trivial (by simp)
  simp only [World.handle, nothing, List.nil_append] at worldThrice agendaThrice
  obtain ⟨worldLast, agendaLast, frameLast⟩ := step_of_native agendaThrice trivial (by simp)
  simp only [World.handle, List.nil_append] at worldLast agendaLast
  have back : World.Raised machine.step.step.step.step.world machine.step.step.world
      fun id => [callback.value].count (.object id) := by
    rw [worldLast, worldThrice]
    exact ⟨raised.objects, raised.size, raised.engine, raised.bridges, raised.client⟩
  have client : machine.step.step.step.step.world.client = machine.world.client :=
    back.client.symm.trans emptied.client
  obtain ⟨last, finishes, reply, ends⟩ :=
    @finishes_answer _ rest label call _ agendaLast (by rw [client]; exact calls.named)
  obtain ⟨task, shape⟩ := calls.busy
  refine ⟨last, ?_, reply, ?_⟩
  · refine Finishes.head [] shape ?_
    refine Finishes.head_of_call [_, _] first ?_
    refine Finishes.head_of_call [_, _] agenda ?_
    exact finishes.head_of_call [_] agendaThrice
  · rw [frameLast, frameThrice, frame] at ends
    exact World.disconnected_of_released emptied.rewired emptied.engine emptied.client back ends

/-- Where a call returns that has detached a callback, the reference has been given back as if
there had been nothing else to do, and then the call was answered. -/
theorem freed_of_detaching (attained : machine.Attained)
    (running : machine.world.engine.running = true) (calls : machine.Calls label keep call rest)
    (owns : machine.world.Owns call.bridge call.receiver key state) {callback : StrongRef}
    {token : Int32}
    (leaves : machine.world.calling call =
      (machine.world.entered call).detaching call.bridge key state callback token)
    (finishes : Finishes (call.closing ++ .finish label :: rest) machine.step later) :
    ∃ emptied freed, machine.Emptied call key state emptied ∧
      Finishes [] (machine.giving emptied keep callback.value) freed ∧
      later.world = { freed.world.emit (.disconnected key) with
        client := freed.world.client.keeping keep [.bool true] } := by
  obtain ⟨first, emptied, second⟩ := emptied_of_detaching running calls owns leaves
  have onward := @Finishes.step _ _ _ [_, _] _ finishes first
  have agenda : machine.step.step.agenda =
      [.release callback.value] ++ ([.report (.disconnected key), .answer (.value (.bool true))] ++
        (call.closing ++ .finish label :: rest)) := by
    rw [second]
    rfl
  obtain ⟨middle, freed, last⟩ := onward.split agenda
  have keeps : middle.frame.keep = keep := by
    rw [(freed.framed attained.step.step agenda (by simp [Task.Unheard])).1, second]
    rfl
  obtain ⟨world, left, frame⟩ := step_of_native freed.agenda trivial (by simp)
  obtain ⟨worldLast, leftLast, -⟩ := step_answer left
  have ends := @Finishes.step _ _ _ [] _ (@Finishes.step _ _ _ [_] _ last freed.agenda) left
  refine ⟨machine.step.step.world, { middle with agenda := [] }, emptied, ?_, ?_⟩
  · have alone := freed.instead agenda []
    have same : ({ machine.step.step with agenda := [.release callback.value] ++ [] } : Machine) =
        machine.giving machine.step.step.world keep callback.value :=
      congrArg (fun before : Machine => { before with agenda := [.release callback.value] }) second
    rwa [same] at alone
  · rw [ends.eq_self leftLast, worldLast, world, frame, keeps]
    rfl

/-- The call disconnects what another call has connected. -/
structure Undoes (call undo : Call) : Prop where
  entry : undo.entry = .disconnect
  bridge : undo.bridge = call.bridge
  receiver : undo.receiver = call.receiver
  token : ∃ token, undo.arguments = [token] ∧ token.isNumber = true

/-- To connect a callback and to disconnect it again leaves no trace, where the callback had a
reference already. -/
theorem finishes_undone (owns : machine.world.Owns call.bridge call.receiver key state)
    (empty : state.callback = none) {callback : Value}
    (referred : ∀ object, machine.world.object? callback = some object → 1 ≤ object.refCount)
    (clears : (machine.world.config call.bridge).disconnect = .clearSlot) {last next : Machine}
    (connected : machine.world.Connected call key state callback keep last.world)
    (onward : next.world = last.world) (running : machine.world.engine.running = true)
    {undo : Call} (calls : next.Calls label keepNext undo rest) (undoes : Undoes call undo) :
    ∃ final, Finishes rest next final ∧ final.frame.reply = .value (.bool true) ∧
      final.world =
        { machine.world with
          client := (machine.world.client.keeping keep [.int connectionToken]).keeping keepNext
            [.bool true]
          events := final.world.events } := by
  obtain ⟨entry, bridge, receiver, token, given, number⟩ := undoes
  obtain ⟨rewired, counted, client⟩ := connected
  rw [← onward] at rewired counted client
  have ownsNext : next.world.Owns undo.bridge undo.receiver key (state.connected callback) := by
    rw [bridge, receiver]
    exact rewired.owns owns
  have runs : next.world.engine.running = true := by
    rw [counted.rest]
    exact running
  have clearsNext : (next.world.config undo.bridge).disconnect = .clearSlot := by
    rw [bridge, rewired.config, clears]
  obtain ⟨slot, leaves⟩ := World.calling_of_filled ownsNext entry given number clearsNext
    (show (state.connected callback).callback = some ⟨callback⟩ from rfl)
  have shared : ∀ object, next.world.object? callback = some object → 2 ≤ object.refCount := by
    intro object found
    cases callback with
    | object place =>
        have reached : next.world.engine.heap.get? place = some object := found
        rw [counted.objects, Option.map_eq_some_iff] at reached
        obtain ⟨held, foundBefore, rfl⟩ := reached
        have one := referred held foundBefore
        simp only [if_true]
        omega
    | _ => cases found
  obtain ⟨final, finishes, reply, disconnected⟩ := finishes_shared runs calls ownsNext leaves shared
  obtain ⟨back, uncounted, clientFinal⟩ := disconnected
  refine ⟨final, finishes, reply, ?_⟩
  have same : (state.connected callback).cleared = state := by
    obtain ⟨held, link⟩ := state
    cases empty
    rfl
  rw [bridge, receiver, same] at back
  have bridges := rewired.restored back owns
  have engine := uncounted.unique counted
  rw [client] at clientFinal
  exact World.eq_of_parts engine bridges clientFinal

/-- What `connect` and `disconnect` change of a bound handle, and what they leave alone. -/
structure TouchesCallback (machine : Machine) (label : String) (keep : Option String) (call : Call)
    (rest : List Task) (key : Key) (state : SignalState) : Prop where
  /-- A callback that is connected is written to the state and counted once. -/
  connects : call.entry = .connect → ∀ later value,
    machine.ReturnsInBounds label call rest later value →
      value = .int connectionToken ∧ ∃ callback last, call.arguments = [callback] ∧
        state.callback = none ∧ Finishes rest machine last ∧ last.frame.reply = .value value ∧
        machine.world.Connected call key state callback keep last.world
  /-- A callback that is disconnected leaves the state first. Then one reference to it is given
  back, as if there were nothing else to do, and the call returns. -/
  detaches : call.entry = .disconnect → ∀ later,
    machine.ReturnsInBounds label call rest later (.bool true) →
      ∃ callback emptied freed, state.callback = some callback ∧
      machine.Emptied call key state emptied ∧
      Finishes [] (machine.giving emptied keep callback.value) freed ∧
      later.world = { freed.world.emit (.disconnected key) with
        client := freed.world.client.keeping keep [.bool true] }
  /-- Nothing comes of a reference that is not the last one. -/
  shares : call.entry = .disconnect → ∀ later callback,
    machine.ReturnsInBounds label call rest later (.bool true) → state.callback = some callback →
    (∀ object, machine.world.object? callback.value = some object → 2 ≤ object.refCount) →
    ∃ last, Finishes rest machine last ∧ last.frame.reply = .value (.bool true) ∧
      machine.world.Disconnected call key state callback.value keep last.world
  /-- A connection that is undone leaves what was told, and the answers. -/
  restores : call.entry = .connect → ∀ later value callback last,
    machine.ReturnsInBounds label call rest later value → call.arguments = [callback] →
    (∀ object, machine.world.object? callback = some object → 1 ≤ object.refCount) →
    (machine.world.config call.bridge).disconnect = .clearSlot → Finishes rest machine last →
    ∀ next labelNext keepNext undo restNext, next.world = last.world →
      next.Calls labelNext keepNext undo restNext → Undoes call undo →
      ∃ final, Finishes restNext next final ∧ final.frame.reply = .value (.bool true) ∧
        final.world =
          { machine.world with
            client := (machine.world.client.keeping keep [.int connectionToken]).keeping keepNext
              [.bool true]
            events := final.world.events }
  /-- Where nothing is disconnected, nothing is different. -/
  stays : call.entry = .disconnect → ∀ later, machine.Returns label call rest later (.bool false) →
    ∃ last, Finishes rest machine last ∧ last.frame.reply = .value (.bool false) ∧
      last.world =
        { machine.world with
          client := machine.world.client.keeping keep [.bool false]
          events := last.world.events }
  /-- Whatever comes of it, all other Signals have their states as long as they are bound. -/
  spares : call.entry = .connect ∨ call.entry = .disconnect → machine.world.Scriptless →
    ∀ later, Inside rest machine.step later → ∀ other value found,
      ¬(other = call.bridge ∧ value = call.receiver) →
      later.world.boundState other value = .ok found →
      machine.world.boundState other value = .ok found

theorem attaching_of_returns (running : machine.world.engine.running = true)
    (calls : machine.Calls label keep call rest)
    (bound : machine.world.boundState call.bridge call.receiver = .ok (key, state))
    (entry : call.entry = .connect) (returns : machine.Returns label call rest later value) :
    ∃ callback, call.arguments = [callback] ∧ state.callback = none ∧
      machine.world.calling call =
        (machine.world.entered call).attaching call.bridge key state callback := by
  have touches := World.touches_calling bound (.inl entry)
  generalize leaves : machine.world.calling call = outcome at touches
  rw [entry] at touches
  generalize call.arguments = arguments at touches
  cases touches with
  | failed same =>
      exact absurd (returns.reply_of_done running calls leaves) (reply_error_ne_value _ _ value)
  | @connected callback empty => exact ⟨callback, rfl, empty, rfl⟩

/-- What a call to disconnect comes to, if it returns: nothing, or a callback that is let go. -/
theorem detaching_of_returns (running : machine.world.engine.running = true)
    (calls : machine.Calls label keep call rest)
    (bound : machine.world.boundState call.bridge call.receiver = .ok (key, state))
    (entry : call.entry = .disconnect) {truth : Bool}
    (returns : machine.Returns label call rest later (.bool truth)) :
    (truth = false ∧ ∃ after, (machine.world.entered call).Unchanged after ∧
        machine.world.calling call = after.done (.value (.bool false))) ∨
      truth = true ∧ ∃ callback token, state.callback = some callback ∧
        machine.world.calling call =
          (machine.world.entered call).detaching call.bridge key state callback token := by
  have touches := World.touches_calling bound (.inr entry)
  generalize leaves : machine.world.calling call = outcome at touches
  rw [entry] at touches
  cases touches with
  | failed same =>
      exact absurd (returns.reply_of_done running calls leaves) (reply_error_ne_value _ _ _)
  | @idle arguments after same =>
      have answered := returns.reply_of_done running calls leaves
      cases truth with
      | true => simp at answered
      | false => exact .inl ⟨rfl, after, same, rfl⟩
  | @detached arguments callback token filled =>
      have answered := returns.reply_of_after running calls leaves
      cases truth with
      | true => exact .inr ⟨rfl, callback, token, filled, rfl⟩
      | false => simp at answered

/-- Whoever is bound to another state after a call to connect or to disconnect was so before. -/
theorem spares_of_owns (running : machine.world.engine.running = true)
    (calls : machine.Calls label keep call rest)
    (owns : machine.world.Owns call.bridge call.receiver key state)
    (method : call.entry = .connect ∨ call.entry = .disconnect)
    (scriptless : machine.world.Scriptless) (inside : Inside rest machine.step later)
    {other : BridgeId} {handle : Value} {found : Key × SignalState}
    (apart : ¬(other = call.bridge ∧ handle = call.receiver))
    (bound : later.world.boundState other handle = .ok found) :
    machine.world.boundState other handle = .ok found := by
  have entered := World.still_entered machine.world call
  obtain ⟨world, agenda, -⟩ := step_call running calls
  obtain ⟨others, tasks, registry⟩ :=
    (World.touches_calling owns.bound method).spares (owns.of_still entered)
  rw [← world] at others registry
  have runs : machine.step.world.Scriptless := by
    unfold World.Scriptless
    rw [registry, entered.engine]
    exact scriptless
  have shape : machine.step.agenda =
      ((machine.world.calling call).2 ++ (call.closing ++ [.finish label])) ++ rest := by
    rw [agenda]
    simp
  have sheds := inside.sheds runs shape fun task member => by
    rcases List.mem_append.1 member with early | late
    · exact tasks task early
    · rcases List.mem_append.1 late with closes | last
      · unfold Call.closing at closes
        split at closes
        · cases List.mem_singleton.1 closes
          trivial
        · cases closes
      · cases List.mem_singleton.1 last
        trivial
  have first := sheds.bound other handle found bound
  rw [others other handle apart, entered.bound_state] at first
  exact first

/-- Where handles and states belong together, to connect and to disconnect touches one callback
and the counts of what is connected, and whatever comes of the reference that is given back. -/
theorem touches_callback_of_bound (inBounds : machine.AttainedInBounds)
    (running : machine.world.engine.running = true) (calls : machine.Calls label keep call rest)
    {table : Bridge} (found : machine.world.bridge? call.bridge = some table)
    (together : machine.world.OneHandleOneState table.classId call.bridge)
    (bound : machine.world.boundState call.bridge call.receiver = .ok (key, state)) :
    machine.TouchesCallback label keep call rest key state := by
  have owns := together.owns found bound
  refine ⟨?_, ?_, ?_, ?_, ?_, ?_⟩
  · intro entry later value ends
    obtain ⟨callback, given, empty, leaves⟩ :=
      attaching_of_returns running calls bound entry ends.returns
    have same : value = .int connectionToken :=
      (Reply.value.inj (ends.returns.reply_of_done running calls leaves)).symm
    subst same
    obtain ⟨last, finishes, reply, connected⟩ := finishes_connected running calls owns leaves
    exact ⟨rfl, callback, last, given, empty, finishes, reply, connected⟩
  · intro entry later ends
    rcases detaching_of_returns running calls bound entry ends.returns with
      ⟨no, -⟩ | ⟨-, callback, token, filled, leaves⟩
    · cases no
    · obtain ⟨emptied, freed, empties, gives, ends⟩ :=
        freed_of_detaching inBounds.attained running calls owns leaves ends.returns.finishes
      exact ⟨callback, emptied, freed, filled, empties, gives, ends⟩
  · intro entry later callback ends filled shared
    rcases detaching_of_returns running calls bound entry ends.returns with
      ⟨no, -⟩ | ⟨-, held, token, same, leaves⟩
    · cases no
    · cases filled.symm.trans same
      exact finishes_shared running calls owns leaves shared
  · intro entry later value callback last ends given referred clears finishes next labelNext
      keepNext undo restNext onward callsNext undoes
    obtain ⟨other, same, empty, leaves⟩ :=
      attaching_of_returns running calls bound entry ends.returns
    cases given.symm.trans same
    obtain ⟨ended, also, -, connected⟩ := finishes_connected running calls owns leaves
    rw [also.unique finishes] at connected
    exact finishes_undone owns empty referred clears connected onward running callsNext undoes
  · intro entry later returns
    rcases detaching_of_returns running calls bound entry returns with
      ⟨-, after, same, leaves⟩ | ⟨no, -⟩
    · exact finishes_unchanged running calls same leaves
    · cases no
  · intro method scriptless later inside other handle found apart bound
    exact spares_of_owns running calls owns method scriptless inside apart bound

/-- A callback is about to be disconnected that its client refers to as well. -/
def sharedCallback : Machine :=
  (runAll 40 (start .immediate)
    [.act "install" (.bridge (.install "signals" {})) none,
      .act "function" (.object (.createFunction "callback")) (some "callback"),
      .act "construct" (.bridge (.enter "signals" .construct (.literal .undefined) []))
        (some "signal"),
      .act "connect" (.bridge (.enter "signals" .connect (.register "signal")
        [.register "callback"])) none]).submit
    (.act "disconnect" (.bridge (.enter "signals" .disconnect (.register "signal")
      [.literal (.int 0)])) none)

theorem touches_callback_of_shared_callback :
    sharedCallback.TouchesCallback "disconnect" none
        ⟨⟨0⟩, .disconnect, .direct, .object ⟨2⟩, [.int 0]⟩ [] ⟨0, 0⟩
        ⟨some ⟨.object ⟨1⟩⟩, none⟩ ∧
      ∃ last, Finishes [] sharedCallback last ∧ last.frame.reply = .value (.bool true) ∧
        sharedCallback.world.Disconnected ⟨⟨0⟩, .disconnect, .direct, .object ⟨2⟩, [.int 0]⟩
          ⟨0, 0⟩ ⟨some ⟨.object ⟨1⟩⟩, none⟩ (.object ⟨1⟩) none last.world := by
  have reached : Reachable ⟨0⟩ sharedCallback :=
    ((Reachable.start .immediate).run_all rfl).submit rfl (Step.known_of_no_objects _ rfl)
  have inBounds : sharedCallback.AttainedInBounds :=
    ((attained_in_bounds_start .immediate).run_all (@rfl _ [])
      (show checkBoundsAll 40 _ _ = true from rfl)).submit rfl
        (World.in_bounds_of_check (show World.checkBounds _ = true from rfl))
  have serves : ∃ table, sharedCallback.world.Serves ⟨0⟩ ⟨0⟩ table := by
    refine ⟨_, rfl, rfl, rfl, ?_, by decide⟩
    intro other bridge found ofClass
    exact World.bridge_of_single rfl found
  obtain ⟨table, serves⟩ := serves
  have together := serves.together ((reached.orderly rfl).bound.agree _ _ serves)
  rw [← serves.ofClass] at together
  have touches := @touches_callback_of_bound sharedCallback [] "disconnect" none
    ⟨⟨0⟩, .disconnect, .direct, .object ⟨2⟩, [.int 0]⟩ ⟨0, 0⟩ ⟨some ⟨.object ⟨1⟩⟩, none⟩
    inBounds rfl ⟨_, rfl, rfl⟩ table serves.found together rfl
  have stays : sharedCallback.step.StaysInBounds :=
    stays_in_bounds_of_check (show checkBounds 40 _ = true from rfl)
  have answered : Finishes [.endCall ⟨0⟩, .finish "disconnect"]
      sharedCallback.step.step.step.step.step sharedCallback.step.step.step.step.step :=
    ⟨.refl, rfl⟩
  have told := @Finishes.head sharedCallback.step.step.step.step _ _ _ [] rfl answered
  have given := @Finishes.head sharedCallback.step.step.step _ _ _ [_] rfl told
  have dropped := @Finishes.head sharedCallback.step.step _ _ _ [_, _] rfl given
  have returns := @Finishes.head sharedCallback.step _ _ _ [_, _] rfl dropped
  refine ⟨touches, touches.shares rfl _ _ (Returns.in_bounds ⟨returns, rfl⟩ stays) rfl
    fun object found => ?_⟩
  have counted : sharedCallback.world.refCount? (.object ⟨1⟩) = some 2 := rfl
  rw [World.refCount?, found] at counted
  exact Nat.le_of_eq (Option.some.inj counted).symm

end Calls

end Machine

end ScriptSignal
