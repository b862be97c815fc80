import ScriptSignal.Proofs.Commands

/-!
# New Signals, exactly

A construction that succeeds leaves the world as it was, with one object more and one state more.
The prototype is counted twice and given back once, by different operations, and the link once;
either may be no object or one that was freed, and both may be one. Whatever they are, each live
object has gained exactly the references that the new Signal holds to it.
-/

namespace ScriptSignal

set_option autoImplicit false

namespace World

/-- The value that a construction takes for the prototype. It is the prototype of the class,
or what an explicit target has under that name, itself or along its own prototypes. -/
inductive Seeks (world : World) (classId : ClassId) : Value → Value → Prop
  | ofClass {record : ClassRecord}
      (defined : world.engine.registry.record? classId = some record) :
      Seeks world classId .undefined (.object record.proto)
  | ofTarget (target : ObjectId) :
      Seeks world classId (.object target)
        ((world.engine.heap.lookup target "prototype").getD .undefined)

section Seeking

variable {before world : World} {bridge : BridgeId} {table : Bridge} {target sought : Value}
  {classId : ClassId} {link : Option StrongRef} {call : Call}

theorem seeks_of_signal_prototype (found : world.bridge? bridge = some table)
    (reads : world.signalPrototype? bridge target = .ok sought) :
    world.Seeks table.classId target sought := by
  unfold signalPrototype? at reads
  cases target with
  | undefined =>
      simp only [Value.isUndefined, if_true, found, Option.map_some, classPrototype?] at reads
      split at reads
      · rename_i record defined
        cases reads
        exact .ofClass defined
      · cases reads
  | object place =>
      simp only [Value.isUndefined, Bool.false_eq_true, if_false, property?,
        Except.ok.injEq] at reads
      rw [← reads]
      exact .ofTarget place
  | _ => cases reads

theorem Seeks.of_engine (seeks : world.Seeks classId target sought)
    (same : world.engine = before.engine) : before.Seeks classId target sought := by
  cases seeks with
  | ofClass defined => exact .ofClass (same ▸ defined)
  | ofTarget place =>
      rw [same]
      exact .ofTarget place

theorem signal_prototype_linked (world : World) (link : Option StrongRef) (bridge : BridgeId)
    (target : Value) :
    (world.linked link).signalPrototype? bridge target = world.signalPrototype? bridge target := by
  cases link with
  | none => rfl
  | some held =>
      have raised := raised_acquire world held.value
      have read := property_duplicate world held.value target "prototype"
      change (world.acquire held.value).signalPrototype? bridge target = _
      unfold signalPrototype?
      rw [raised.bridge]
      split
      · unfold classPrototype?
        rw [raised.engine]
      · exact read

theorem prototype_of_entered (world : World) (call : Call) (value : Value) :
    (world.entered call).prototypeOf value = world.prototypeOf value := by
  unfold prototypeOf isAlive object?
  rw [(parts_entered world call).1]

theorem Seeks.within (seeks : world.Seeks classId target sought) (grounded : world.Grounded) :
    sought.Within world.size := by
  cases seeks with
  | ofClass defined => exact (grounded.classes classId _ defined).proto
  | ofTarget place => exact @within_of_property world grounded (.object place) _ "prototype" rfl

end Seeking

section Sharing

variable {world : World} {value : Value}

/-- To give back a reference that is not the last one undoes the counting of it. -/
theorem raised_of_shared
    (shared : ∀ object, world.object? value = some object → 2 ≤ object.refCount) :
    (world.release value).2 = [] ∧
      Raised (world.release value).1 world fun id => [value].count (.object id) := by
  have nothing := release_of_counted shared
  refine ⟨nothing, ?_⟩
  cases value with
  | object place =>
      cases found : world.engine.heap.get? place with
      | none =>
          have same : (world.release (.object place)).1 = world.emit (.unknownRelease place) := by
            simp [release, releaseObject, found]
          rw [same]
          have still : Raised (world.emit (.unknownRelease place)) world fun _ => 0 :=
            ⟨(Raised.refl world).objects, rfl, rfl, rfl, rfl⟩
          refine still.congr fun id object held => ?_
          rw [count_object, if_neg]
          rintro rfl
          cases found.symm.trans held
      | some object =>
          have many := shared object found
          obtain ⟨count, counted⟩ : ∃ count, object.refCount = (count + 1) + 1 :=
            ⟨object.refCount - 2, by omega⟩
          have same : (world.release (.object place)).1 =
              world.putObject place { object with refCount := count + 1 } := by
            simp [release, releaseObject, found, counted]
          have lowered : (world.putObject place
              { object with refCount := count + 1 }).engine.heap.get? place =
                some { object with refCount := count + 1 } := Heap.get_put_same found _
          have back := raised_recount lowered
          have restored : (world.putObject place { object with refCount := count + 1 }).putObject
              place { object with refCount := count + 1 + 1 } = world := by
            rw [← counted]
            have heap := Heap.put_put_self { object with refCount := count + 1 } found
            exact congrArg (fun heap => { world with engine := { world.engine with heap } }) heap
          rw [restored] at back
          rw [same]
          exact back
  | _ => exact (Raised.refl world).congr fun id _ _ => count_value_of_not_object (by simp) id

end Sharing

/-- The world is as before, with a new Signal of a bridge. -/
structure Constructed (before : World) (call : Call) (table : Bridge) (proto : Option ObjectId)
    (keep : Option String) (after : World) : Prop where
  /-- The new object has one reference and nothing but its prototype and its key. -/
  itself : after.engine.heap.get? before.engine.heap.nextId =
    some ⟨1, .native table.classId (some table.states.nextKey.toBits), proto, .empty⟩
  /-- What was alive is so still, and differs in its count alone. -/
  others : ∀ id, id ≠ before.engine.heap.nextId → after.engine.heap.get? id =
    (before.engine.heap.get? id).map fun object =>
      { object with
        refCount := object.refCount + (if linkOf call.arguments = some ⟨.object id⟩ then 1 else 0)
          + (if proto = some id then 1 else 0) }
  size : after.size = before.size + 1
  /-- Classes, the queue, the mode and the counters are the same. -/
  engine : after.engine = { before.engine with heap := after.engine.heap }
  /-- The table has one state more, which is empty and holds the link. -/
  tables : ∀ id, after.bridge? id = (before.bridge? id).map fun bridge =>
    { bridge with
      states :=
        if id = call.bridge then bridge.states.insert ⟨none, linkOf call.arguments⟩
        else bridge.states }
  /-- The key is one that the table did not have, and all other keys reach what they did. The
  condition is where 32 bits still number the slots. -/
  fresh : (table.states.insert ⟨none, linkOf call.arguments⟩).capacity ≤ 2 ^ 32 →
    before.state? call.bridge table.states.nextKey = none ∧
      after.boundState call.bridge before.nextValue =
        .ok (table.states.nextKey, ⟨none, linkOf call.arguments⟩) ∧
      ∀ key, key ≠ table.states.nextKey →
        after.state? call.bridge key = before.state? call.bridge key
  /-- The client has come by the answer at most. -/
  client : after.client = before.client.keeping keep [before.nextValue]

section Constructing

variable {before world after : World} {bridge : BridgeId} {table : Bridge} {link : Option StrongRef}
  {sought handle : Value} {classId : ClassId} {call : Call} {keep : Option String}

theorem engine_set_slot (world : World) (value : Value) (classId : ClassId) (key : Option Key) :
    (world.setSlot value classId key).engine =
      { world.engine with heap := (world.setSlot value classId key).engine.heap } := by
  rcases set_slot_cases world value classId key with
    ⟨same, -⟩ | ⟨id, object, slot, -, -, -, same⟩
  · rw [same]
  · rw [same]
    rfl

theorem engine_bind_handle (world : World) (id : BridgeId) (handle : Value) (key : Option Key) :
    (world.bindHandle id handle key).engine =
      { world.engine with heap := (world.bindHandle id handle key).engine.heap } := by
  rcases bind_handle_cases world id handle key with same | ⟨held, -, same⟩
  · rw [same]
  · rw [same]
    exact engine_set_slot world handle held.classId key

theorem rest_bind_signal (found : world.bridge? bridge = some table) (route : Route)
    (handle : Value) (link : Option StrongRef) :
    (world.bindSignal bridge route handle link).1.size = world.size ∧
      (world.bindSignal bridge route handle link).1.client = world.client ∧
      (world.bindSignal bridge route handle link).1.engine =
        { world.engine with
          heap := (world.bindSignal bridge route handle link).1.engine.heap } := by
  rw [bind_signal_eq found]
  exact ⟨(same_setting_bind_handle _ bridge handle _).places, client_bind_handle bridge handle _,
    engine_bind_handle _ bridge handle _⟩

theorem client_with_instance (before : World) (link : Option StrongRef) (proto : Value)
    (classId : ClassId) : (before.withInstance link proto classId).client = before.client := by
  have raised := raised_prototype before link proto
  unfold withInstance allocateInstance
  split
  · exact (raised.trans (raised_duplicate _ proto)).client
  · exact raised.client

theorem size_with_instance (before : World) (link : Option StrongRef) (proto : Value)
    (classId : ClassId) : (before.withInstance link proto classId).size = before.size + 1 := by
  have raised := raised_prototype before link proto
  unfold withInstance allocateInstance
  split
  · rw [size_allocate, (raised.trans (raised_duplicate _ proto)).size]
  · rw [size_allocate, raised.size]

/-- One of the two references to the prototype is not the last one. -/
theorem shared_with_instance (known : sought.Within before.size) :
    ∀ object, (before.withInstance link sought classId).object? sought = some object →
      2 ≤ object.refCount := by
  apply counted_allocate_instance
  · rw [(raised_prototype before link sought).size]
    exact known
  · exact fun object found => object_duplicate found

theorem get_next_released (known : sought.Within before.size) :
    ((before.withInstance link sought classId).release sought).1.engine.heap.get?
      before.engine.heap.nextId =
        some ⟨1, .native classId none, before.prototypeOf sought, .empty⟩ := by
  have uncounted : [sought].count (.object before.engine.heap.nextId) = 0 := by
    rw [List.count_eq_zero, List.mem_singleton]
    exact fun same => ne_next_of_within known same.symm
  rw [(lowered_release _ sought).objects, get_next_with_instance, uncounted]
  rfl

theorem count_signal_values (proto : Option ObjectId) (arguments : List Value) (id : ObjectId) :
    (signalValues proto ⟨none, linkOf arguments⟩).count (.object id) =
      (if linkOf arguments = some ⟨.object id⟩ then 1 else 0)
        + (if proto = some id then 1 else 0) := by
  have linked : ∀ link : Option StrongRef, (link.toList.map StrongRef.value).count (.object id) =
      if link = some ⟨.object id⟩ then 1 else 0 := by
    rintro (_ | ⟨⟨value⟩⟩)
    · rfl
    · simp [List.count_singleton]
  have owned : (proto.toList.map Value.object).count (.object id) =
      if proto = some id then 1 else 0 := by
    cases proto with
    | none => rfl
    | some place => simp [List.count_singleton]
  simp only [signalValues, SignalState.values, SignalState.held, Option.toList_none,
    List.nil_append, List.count_append, linked, owned]
  omega

/-- Apart from its objects the world is the same, once the prototype is given back. -/
theorem rest_released (known : sought.Within before.size) {released : World}
    (gives : released = ((before.withInstance link sought classId).release sought).1) :
    released.size = before.size + 1 ∧ released.client = before.client ∧
      released.bridges = before.bridges ∧
      released.engine = { before.engine with heap := released.engine.heap } := by
  obtain ⟨-, raised⟩ := raised_of_shared (@shared_with_instance before link sought classId known)
  rw [← gives] at raised
  obtain ⟨bridges, engine⟩ := rest_with_instance before link sought classId
  refine ⟨?_, ?_, raised.bridges.symm.trans bridges, ?_⟩
  · rw [← raised.size, size_with_instance]
  · rw [← raised.client, client_with_instance]
  · exact congrArg (fun other => { other with heap := released.engine.heap })
      (raised.engine.symm.trans engine)

theorem tables_of_constructed {released bound : World} {held : Bridge}
    (begun : (before.entered call).bridge? call.bridge = some held)
    (bridges : released.bridges = (before.entered call).bridges)
    (binds : bound = (released.bindSignal call.bridge call.route before.nextValue link).1)
    (client : Client) (id : BridgeId) :
    (({ bound with client := client } : World).exited call).bridge? id =
      (before.bridge? id).map fun bridge =>
        { bridge with
          states :=
            if id = call.bridge then bridge.states.insert ⟨none, link⟩ else bridge.states } := by
  have there : released.bridge? call.bridge = some held := by
    unfold bridge? at begun ⊢
    rwa [bridges]
  refine @bridge_exited before _ call (fun id states =>
    if id = call.bridge then states.insert ⟨none, link⟩ else states) ?_ id
  intro other
  have written := bridge_bind_signal there call.route before.nextValue link other
  rw [← binds] at written
  change bound.bridge? other = _
  rw [written]
  split
  · rename_i here
    rw [here, begun]
    simp
  · unfold bridge?
    rw [bridges]
    simp

/-- The key that the table gives out next binds the new handle, and it binds nothing else. -/
theorem fresh_of_constructed (found : before.bridge? bridge = some table)
    (sound : table.states.Sound) {id : ObjectId}
    (here : after.bridge? bridge = some { table with states := table.states.insert ⟨none, link⟩ })
    (kind : (after.engine.heap.get? id).map Object.kind =
      some (.native table.classId (some table.states.nextKey.toBits)))
    (room : (table.states.insert ⟨none, link⟩).capacity ≤ 2 ^ 32) :
    before.state? bridge table.states.nextKey = none ∧
      after.boundState bridge (.object id) = .ok (table.states.nextKey, ⟨none, link⟩) ∧
      ∀ key, key ≠ table.states.nextKey → after.state? bridge key = before.state? bridge key := by
  have reads : ∀ key, after.state? bridge key =
      if key = table.states.nextKey then some ⟨none, link⟩ else table.states.get? key := by
    intro key
    simp only [state?, here, Option.bind_some]
    exact Slab.get_insert sound _ room key
  refine ⟨?_, ?_, ?_⟩
  · simp only [state?, found, Option.bind_some]
    exact Slab.get_next_key sound room
  · have bound : after.boundKey bridge (.object id) = .ok table.states.nextKey :=
      bound_key_eq_ok.2 ⟨_, here,
        slot_key_eq_some_iff.2 ⟨table.states.nextKey.toBits, kind, Key.of_bits_to_bits _⟩⟩
    refine bound_state_eq_ok_iff.2 ⟨bound, ?_⟩
    rw [reads, if_pos rfl]
  · intro key other
    rw [reads, if_neg other]
    simp [state?, found]

/-- A call whose new handle is bound and answered leaves one Signal more. -/
theorem constructed_of_bound (found : before.bridge? call.bridge = some table)
    (sound : table.states.Sound) (known : sought.Within before.size) {released bound : World}
    (gives : released = (((before.entered call).withInstance (linkOf call.arguments) sought
      table.classId).release sought).1)
    (binds : bound = (released.bindSignal call.bridge call.route before.nextValue
      (linkOf call.arguments)).1)
    (ends : after =
      { bound with client := bound.client.keeping keep [before.nextValue] }.exited call) :
    before.Constructed call table (before.prototypeOf sought) keep after := by
  obtain ⟨engineBegun, clientBegun⟩ := parts_entered before call
  obtain ⟨engineAfter, clientAfter⟩ := parts_exited
    { bound with client := bound.client.keeping keep [before.nextValue] } call
  rw [← ends] at engineAfter clientAfter
  have sameSize : (before.entered call).size = before.size := congrArg (·.heap.places.size)
    engineBegun
  have sameNext : (before.entered call).engine.heap.nextId = before.engine.heap.nextId := by
    rw [engineBegun]
  rw [← sameSize] at known
  obtain ⟨held, begun, sameClass, sameStates, -⟩ := found_entered found
  obtain ⟨size, client, bridges, engine⟩ := rest_released known gives
  have there : released.bridge? call.bridge = some held := by
    unfold bridge? at begun ⊢
    rwa [bridges]
  have waiting := @get_next_released (before.entered call) (linkOf call.arguments) sought
    table.classId known
  rw [← gives, sameNext, prototype_of_entered] at waiting
  obtain ⟨itself, others⟩ := get_bind_signal there waiting
    (show ObjectKind.native table.classId none = .native held.classId none by rw [sameClass])
    call.route (linkOf call.arguments)
  obtain ⟨sizeBound, clientBound, engineBound⟩ := rest_bind_signal there call.route
    before.nextValue (linkOf call.arguments)
  have bindsObject : bound = (released.bindSignal call.bridge call.route
      (.object before.engine.heap.nextId) (linkOf call.arguments)).1 := binds
  rw [← bindsObject] at itself
  rw [← binds] at sizeBound clientBound engineBound
  have tables := tables_of_constructed begun bridges binds
    (bound.client.keeping keep [before.nextValue])
  rw [← ends] at tables
  refine ⟨?_, ?_, ?_, ?_, tables, ?_, ?_⟩
  · rw [engineAfter, itself, sameClass, sameStates]
  · intro id other
    have elsewhere := others id other
    rw [← bindsObject] at elsewhere
    rw [engineAfter, elsewhere, gives,
      get_other_released (before.entered call) _ sought table.classId (by rwa [sameNext]),
      engineBegun, prototype_of_entered, count_signal_values]
    simp only [Nat.add_assoc]
  · rw [← sameSize, ← size, ← sizeBound]
    exact congrArg (·.heap.places.size) engineAfter
  · rw [engineAfter]
    change bound.engine = _
    rw [engineBound, engine, engineBegun]
  · have here := tables call.bridge
    simp only [found, Option.map_some, if_true] at here
    refine fresh_of_constructed found sound here ?_
    rw [engineAfter, itself, sameClass, sameStates]
    rfl
  · rw [clientAfter]
    change bound.client.keeping keep [before.nextValue] = _
    rw [clientBound, client, clientBegun]

end Constructing

end World

namespace Machine

section Calls

variable {machine later : Machine} {rest : List Task} {label : String} {keep : Option String}
  {call : Call} {handle : Value}

/-- A new instance is bound once the prototype is given back, and is the answer then. -/
theorem finishes_of_made {before : World} {table : Bridge} {sought : Value}
    (found : before.bridge? call.bridge = some table) (sound : table.states.Sound)
    (known : sought.Within before.size)
    (named : call.route = .direct → call.bridge ∈ before.client.bridges.values)
    (world : machine.world =
      (before.entered call).withInstance (World.linkOf call.arguments) sought table.classId)
    (agenda : machine.agenda = .release sought :: .bind call.bridge call.route before.nextValue
      (World.linkOf call.arguments) :: (call.closing ++ .finish label :: rest))
    (keeps : machine.frame.keep = keep) :
    (∃ answered, Finishes (call.closing ++ .finish label :: rest) machine answered ∧
        answered.frame.reply = .value before.nextValue) ∧
      ∃ last, Finishes rest machine last ∧ last.frame.reply = .value before.nextValue ∧
        before.Constructed call table (before.prototypeOf sought) keep last.world := by
  obtain ⟨engineBegun, clientBegun⟩ := World.parts_entered before call
  obtain ⟨held, begun, -, sameStates, -⟩ := World.found_entered found
  have inside : sought.Within (before.entered call).size := by
    unfold World.size
    rwa [engineBegun]
  -- the second reference to the prototype is not the last one
  obtain ⟨nothing, -⟩ := World.raised_of_shared (@World.shared_with_instance
    (before.entered call) (World.linkOf call.arguments) sought table.classId inside)
  obtain ⟨worldOnce, agendaOnce, frameOnce⟩ := step_of_native agenda trivial (by simp)
  simp only [World.handle, world, nothing, List.nil_append] at worldOnce agendaOnce
  obtain ⟨-, client, bridges, -⟩ := World.rest_released inside worldOnce
  have there : machine.step.world.bridge? call.bridge = some held := by
    unfold World.bridge? at begun ⊢
    rwa [bridges]
  obtain ⟨worldTwice, agendaTwice, frameTwice⟩ := step_of_native agendaOnce trivial (by simp)
  simp only [World.handle] at worldTwice agendaTwice
  have clientTwice : machine.step.step.world.client = before.client := by
    rw [worldTwice, (World.rest_bind_signal there _ _ _).2.1, client, clientBegun]
  rw [World.bind_signal_eq there, Route.reply_ok, List.singleton_append] at agendaTwice
  obtain ⟨last, finishes, reply, ends⟩ := finishes_answer agendaTwice (by rwa [clientTwice])
  have keepsTwice : machine.step.step.frame.keep = keep := by
    rw [frameTwice, frameOnce, keeps]
  rw [keepsTwice] at ends
  obtain ⟨-, agendaAnswered, frameAnswered⟩ := step_answer agendaTwice
  refine ⟨⟨machine.step.step.step, ?_, by rw [frameAnswered]⟩, last, ?_, reply, ?_⟩
  · have binding := (finishes_refl agendaAnswered).head [] agendaTwice
    exact (binding.head [] agendaOnce).head [_] agenda
  · exact (finishes.head_of_call [] agendaOnce).head_of_call [_] agenda
  · exact World.constructed_of_bound found sound known worldOnce worldTwice ends

/-- A construction that returns a handle ends with one Signal more, and nothing else is
different. -/
theorem constructed_of_informed (informed : machine.Informed)
    (inBounds : machine.AttainedInBounds)
    (running : machine.world.engine.running = true)
    (calls : machine.Calls label keep call rest) (constructs : call.entry = .construct)
    (ends : machine.ReturnsInBounds label call rest later handle) :
    handle = machine.world.nextValue ∧
      ∃ table sought last, machine.world.bridge? call.bridge = some table ∧
        machine.world.Seeks table.classId call.receiver sought ∧
        Finishes rest machine last ∧ last.frame.reply = .value handle ∧
        machine.world.Constructed call table (machine.world.prototypeOf sought) keep
          last.world := by
  have returns := ends.returns
  obtain ⟨table, found, sound⟩ := calls.table inBounds.attained running
  obtain ⟨engineBegun, -⟩ := World.parts_entered machine.world call
  obtain ⟨world, agenda, frame⟩ := step_call running calls
  have builds := (machine.world.entered call).builds_signal call.bridge call.route call.receiver
    call.arguments
  simp only [World.calling, constructs, World.enterSignal] at world agenda
  generalize (machine.world.entered call).constructSignal call.bridge call.route call.receiver
    call.arguments = outcome at builds world agenda
  cases builds with
  | @failed after tasks failure gives =>
      have waits : machine.step.agenda = tasks ++ .answer (call.route.reply (.error failure)) ::
          (call.closing ++ .finish label :: rest) := by
        rw [agenda]
        simp [World.after]
      have failed := returns.finishes.answered waits
      rw [returns.reply] at failed
      exact absurd failed.symm (reply_error_ne_value call.route failure handle)
  | @made sought classId reads ofClass =>
      rw [World.signal_prototype_linked] at reads
      obtain ⟨held, begun, sameClass, -, -⟩ := World.found_entered found
      obtain ⟨ofBridge, -⟩ := World.class_of_bridge_of_signal_class ofClass
      rw [(World.raised_linked _ _).bridge, begun] at ofBridge
      cases ofBridge
      have seeks := (World.seeks_of_signal_prototype begun reads).of_engine engineBegun
      rw [sameClass] at seeks world
      have next : ((machine.world.entered call).linked
          (World.linkOf call.arguments)).nextValue = machine.world.nextValue := by
        rw [(World.raised_linked _ _).next]
        exact congrArg (fun engine => Value.object engine.heap.nextId) engineBegun
      rw [next] at agenda
      obtain ⟨⟨answered, early, result⟩, last, finishes, reply, constructed⟩ :=
        finishes_of_made found sound (seeks.within (informed.grounded running).world)
          calls.named world agenda (by rw [frame])
      have same : handle = machine.world.nextValue := by
        have succeeds := returns.reply
        rw [returns.finishes.unique early, result] at succeeds
        exact (Reply.value.inj succeeds).symm
      subst same
      obtain ⟨task, shape⟩ := calls.busy
      exact ⟨rfl, table, sought, last, found, seeks, finishes.head [] shape, reply, constructed⟩

/-- A Signal is about to be made for a target whose prototype is the link as well. -/
def linkedPrototype : Machine :=
  (runAll 40 (start .immediate)
    [.act "install" (.bridge (.install "signals" {})) none,
      .act "shared" (.object .create) (some "shared"),
      .act "target" (.object .create) (some "target"),
      .act "set" (.object (.setProperty (.register "target") "prototype" (.register "shared")))
        none]).submit
    (.act "construct" (.bridge (.enter "signals" .construct (.register "target")
      [.register "shared"])) (some "signal"))

theorem constructed_of_linked_prototype :
    ∃ table sought last, linkedPrototype.world.bridge? ⟨0⟩ = some table ∧
      linkedPrototype.world.Seeks table.classId (.object ⟨2⟩) sought ∧
      Finishes [] linkedPrototype last ∧ last.frame.reply = .value (.object ⟨3⟩) ∧
      linkedPrototype.world.Constructed
        ⟨⟨0⟩, .construct, .direct, .object ⟨2⟩, [.object ⟨1⟩]⟩ table
        (linkedPrototype.world.prototypeOf sought) (some "signal") last.world := by
  have reached : Reachable ⟨0⟩ linkedPrototype :=
    ((Reachable.start .immediate).run_all rfl).submit rfl (Step.known_of_no_objects _ rfl)
  have inBounds : linkedPrototype.AttainedInBounds :=
    ((attained_in_bounds_start .immediate).run_all (@rfl _ [])
      (show checkBoundsAll 40 _ _ = true from rfl)).submit rfl
        (World.in_bounds_of_check (show World.checkBounds _ = true from rfl))
  have stays : linkedPrototype.step.StaysInBounds :=
    stays_in_bounds_of_check (show checkBounds 40 _ = true from rfl)
  have answered : Finishes [.endCall ⟨0⟩, .finish "construct"]
      linkedPrototype.step.step.step.step linkedPrototype.step.step.step.step := ⟨.refl, rfl⟩
  have bound := @Finishes.head linkedPrototype.step.step.step _ _ _ [] rfl answered
  have returns := @Finishes.head linkedPrototype.step _ _ _ [_] rfl
    (@Finishes.head linkedPrototype.step.step _ _ _ [] rfl bound)
  exact (@constructed_of_informed linkedPrototype _ [] "construct" (some "signal")
    ⟨⟨0⟩, .construct, .direct, .object ⟨2⟩, [.object ⟨1⟩]⟩ (.object ⟨3⟩) reached.informed
    inBounds rfl ⟨_, rfl, rfl⟩ rfl (Returns.in_bounds ⟨returns, rfl⟩ stays)).2

end Calls

end Machine

end ScriptSignal
