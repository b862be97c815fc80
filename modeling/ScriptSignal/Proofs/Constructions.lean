import ScriptSignal.Proofs.Atomicity
import ScriptSignal.Proofs.Modes

/-!
# What a construction leaves

A construction counts its link once and the prototype twice, and gives one of these references
back before the new handle is bound. Whether the two are one object, are freed or are no objects
at all, what is left in the end is the world before with one Signal more. Every object has
come by the references that the Signal holds to it, and nothing else is different.
-/

namespace ScriptSignal

set_option autoImplicit false

namespace World

structure Raised (before after : World) (more : ObjectId → Nat) : Prop where
  objects : ∀ id, after.engine.heap.get? id =
    (before.engine.heap.get? id).map fun object =>
      { object with refCount := object.refCount + more id }
  size : after.size = before.size
  engine : after.engine = { before.engine with heap := after.engine.heap }
  bridges : after.bridges = before.bridges
  client : after.client = before.client

section Raising

variable {before world after : World} {more most : ObjectId → Nat}

theorem Raised.refl (world : World) : Raised world world fun _ => 0 where
  objects := by
    intro id
    cases world.engine.heap.get? id <;> rfl
  size := rfl
  engine := rfl
  bridges := rfl
  client := rfl

theorem Raised.trans (first : Raised before world more) (last : Raised world after most) :
    Raised before after fun id => more id + most id where
  objects := by
    intro id
    rw [last.objects, first.objects, Option.map_map]
    simp [Function.comp_def, Nat.add_assoc]
  size := last.size.trans first.size
  engine := by rw [last.engine, first.engine]
  bridges := last.bridges.trans first.bridges
  client := last.client.trans first.client

theorem Raised.alive (raised : Raised before after more) (value : Value) :
    after.isAlive value = before.isAlive value := by
  cases value with
  | object id => simp [isAlive, object?, Value.object?, raised.objects id]
  | _ => rfl

theorem Raised.congr (raised : Raised before after more)
    (same : ∀ id object, before.engine.heap.get? id = some object → most id = more id) :
    Raised before after most := by
  refine ⟨?_, raised.size, raised.engine, raised.bridges, raised.client⟩
  intro id
  rw [raised.objects]
  cases found : before.engine.heap.get? id with
  | none => rfl
  | some object => rw [same id object found]

theorem raised_emit (world : World) (event : Event) :
    Raised world (world.emit event) fun _ => 0 :=
  ⟨(Raised.refl world).objects, rfl, rfl, rfl, rfl⟩

theorem raised_recount {place : ObjectId} {held : Object}
    (found : world.engine.heap.get? place = some held) :
    Raised world (world.putObject place { held with refCount := held.refCount + 1 })
      fun id => [Value.object place].count (.object id) := by
  refine ⟨?_, size_put world place _, rfl, rfl, rfl⟩
  intro id
  rw [count_object]
  by_cases here : id = place
  · subst here
    have written : (world.putObject id
        { held with refCount := held.refCount + 1 }).engine.heap.get? id =
          some { held with refCount := held.refCount + 1 } := Heap.get_put_same found _
    rw [written, found, if_pos rfl]
    rfl
  · have kept : (world.putObject place
        { held with refCount := held.refCount + 1 }).engine.heap.get? id =
          world.engine.heap.get? id := Heap.get_put_other _ here _
    rw [kept, if_neg here]
    exact (Raised.refl world).objects id

theorem Raised.bridge (raised : Raised before after more) (id : BridgeId) :
    after.bridge? id = before.bridge? id := by
  unfold bridge?
  rw [raised.bridges]

theorem Raised.next (raised : Raised before after more) : after.nextValue = before.nextValue :=
  congrArg (fun size => Value.object ⟨size⟩) raised.size

theorem raised_duplicate (world : World) (value : Value) :
    Raised world (world.duplicate value) fun id => [value].count (.object id) := by
  cases value with
  | object place =>
      cases found : world.engine.heap.get? place with
      | none =>
          have same : world.duplicate (.object place) = world.emit (.unknownDuplicate place) := by
            simp [duplicate, found]
          rw [same]
          refine (raised_emit world _).congr ?_
          intro id object held
          rw [count_object, if_neg]
          rintro rfl
          rw [found] at held
          cases held
      | some held =>
          have same : world.duplicate (.object place) =
              world.putObject place { held with refCount := held.refCount + 1 } := by
            simp [duplicate, found]
          rw [same]
          exact raised_recount found
  | _ => exact (Raised.refl world).congr fun id _ _ => count_value_of_not_object (by simp) id

theorem raised_acquire (world : World) (value : Value) :
    Raised world (world.acquire value) fun id => [value].count (.object id) :=
  (raised_duplicate world value).trans (raised_emit _ _)

def prototypeOf (world : World) (proto : Value) : Option ObjectId :=
  if world.isAlive proto then proto.object? else none

/-- Where the prototype is no live object, the instance has none. -/
theorem get_next_allocate_instance (proto : Value) (classId : ClassId) :
    (world.allocateInstance proto classId).engine.heap.get? world.engine.heap.nextId =
      some ⟨1, .native classId none, world.prototypeOf proto, .empty⟩ := by
  unfold allocateInstance prototypeOf
  split
  · have next : (world.duplicate proto).engine.heap.nextId = world.engine.heap.nextId :=
      Value.object.inj (next_duplicate proto)
    rw [← next]
    exact Heap.get_alloc_same _ _ _
  · exact Heap.get_alloc_same _ _ _

theorem get_other_allocate_instance (proto : Value) (classId : ClassId) {id : ObjectId}
    (other : id ≠ world.engine.heap.nextId) :
    (world.allocateInstance proto classId).engine.heap.get? id =
      (world.engine.heap.get? id).map fun object =>
        { object with refCount := object.refCount + [proto].count (.object id) } := by
  unfold allocateInstance
  split
  · have next : (world.duplicate proto).engine.heap.nextId = world.engine.heap.nextId :=
      Value.object.inj (next_duplicate proto)
    rw [← (raised_duplicate world proto).objects]
    exact Heap.get_alloc_other _ _ _ (by rwa [next])
  · rename_i dead
    have uncounted : Raised world world fun id => [proto].count (.object id) := by
      refine (Raised.refl world).congr ?_
      intro id object found
      rw [List.count_singleton]
      simp only [beq_iff_eq, ite_eq_right_iff]
      rintro rfl
      simp [isAlive, object?, Value.object?, found] at dead
    rw [← uncounted.objects]
    exact Heap.get_alloc_other _ _ _ other

theorem get_bind_signal {bridge : BridgeId} {table : Bridge} {handle : ObjectId}
    {object : Object} (found : world.bridge? bridge = some table)
    (held : world.engine.heap.get? handle = some object) {slot : Option UInt64}
    (native : object.kind = .native table.classId slot) (route : Route)
    (link : Option StrongRef) :
    (world.bindSignal bridge route (.object handle) link).1.engine.heap.get? handle =
        some { object with kind := .native table.classId (some table.states.nextKey.toBits) } ∧
      ∀ id, id ≠ handle →
        (world.bindSignal bridge route (.object handle) link).1.engine.heap.get? id =
          world.engine.heap.get? id := by
  have reached := bridge_modify_states world bridge (fun states => states.insert ⟨none, link⟩)
    bridge
  rw [if_pos rfl, found, Option.map_some] at reached
  have bound : (world.bindSignal bridge route (.object handle) link).1.engine.heap =
      world.engine.heap.put handle
        { object with kind := .native table.classId (some table.states.nextKey.toBits) } := by
    have there : (world.modifyStates bridge fun states =>
        states.insert ⟨none, link⟩).engine.heap.get? handle = some object := held
    rw [bind_signal_eq found]
    simp only [bindHandle, reached, Option.map_some, setSlot, there, native]
    rfl
  rw [bound]
  exact ⟨Heap.get_put_same held _, fun id other => Heap.get_put_other _ other _⟩

end Raising

/-- The link that the arguments of a construction name. -/
def linkOf : List Value → Option StrongRef
  | [.object object] => some ⟨.object object⟩
  | _ => none

def linked (world : World) (link : Option StrongRef) : World :=
  link.elim world fun held => world.acquire held.value

/-- What the first half of a construction comes to: a failure after which all is given back, or
a new instance that is to be bound. -/
inductive Builds (world : World) (bridge : BridgeId) (route : Route) (target : Value)
    (link : Option StrongRef) : Outcome → Prop
  | failed {after : World} {tasks : List Task} (failure : Failure)
      (gives : ∀ task ∈ tasks, task.GivesBack) :
      Builds world bridge route target link (after.after tasks (route.reply (.error failure)))
  | made {proto : Value} {classId : ClassId}
      (sought : (world.linked link).signalPrototype? bridge target = .ok proto)
      (ofClass : (world.linked link).signalClass? bridge = some classId) :
      Builds world bridge route target link
        (((world.linked link).duplicate proto).allocateInstance proto classId,
          [.release proto, .bind bridge route (world.linked link).nextValue link])

section Construction

variable {before world after : World} {bridge : BridgeId} {route : Route} {target : Value}
  {link : Option StrongRef}

theorem builds_linked (world : World) (bridge : BridgeId) (route : Route) (target : Value)
    (link : Option StrongRef) :
    Builds world bridge route target link
      ((world.linked link).constructLinked bridge route target link) := by
  have drops : ∀ task ∈ link.toList.map Task.drop, task.GivesBack := gives_back_drops _
  unfold constructLinked
  dsimp only
  split
  · exact .failed _ drops
  · rename_i proto sought
    split
    · apply Builds.failed
      intro task member
      rcases List.mem_cons.1 member with rfl | later
      · trivial
      · exact drops task later
    · rename_i classId ofClass
      rw [next_duplicate]
      rw [signal_class_duplicate] at ofClass
      exact .made sought ofClass

theorem builds_signal (world : World) (bridge : BridgeId) (route : Route) (target : Value)
    (arguments : List Value) :
    Builds world bridge route target (linkOf arguments)
      (world.constructSignal bridge route target arguments) := by
  have nothing : ∀ task ∈ ([] : List Task), task.GivesBack := by simp
  unfold constructSignal
  split
  · exact builds_linked world bridge route target none
  · exact builds_linked world bridge route target none
  · rename_i object
    exact builds_linked world bridge route target (some ⟨.object object⟩)
  · exact .failed _ nothing
  · exact .failed _ nothing

theorem raised_linked (world : World) (link : Option StrongRef) :
    Raised world (world.linked link) fun id =>
      (link.toList.map StrongRef.value).count (.object id) := by
  cases link with
  | none => exact .refl world
  | some held => exact raised_acquire world held.value

theorem changes_linked (world : World) (link : Option StrongRef) :
    Changes world (world.linked link) := by
  cases link with
  | none => exact .refl
  | some held => exact changes_acquire world held.value

theorem Paired.bind (paired : world.Paired) {handle : Value} (awaits : world.Awaits bridge handle)
    (room : (world.bindSignal bridge route handle link).1.Roomy) :
    (world.bindSignal bridge route handle link).1.Paired := by
  obtain ⟨table, found, fresh⟩ := awaits
  have slots := slot_key_bind_signal found fresh route link
  have bridges := bridge_bind_signal found route handle link
  refine paired.of_agree ?_ ?_
  · intro other later reached
    rw [bridges] at reached
    split at reached
    · rename_i same
      cases reached
      exact ⟨table, same ▸ found, rfl⟩
    · exact ⟨later, reached, rfl⟩
  · intro other later reached
    have larger := room other later reached
    rw [bridges] at reached
    by_cases same : other = bridge
    · rw [if_pos same] at reached
      cases reached
      refine (paired.agree bridge table found).insert larger (slot_key_of_unbound fresh _) ?_
      intro value
      rw [slots]
      simp
    · rw [if_neg same] at reached
      have classes : later.classId ≠ table.classId := fun equal =>
        same (paired.apart bridge other table later found reached equal)
      have agree := paired.agree other later reached
      refine agree.of_same ?_ (fun _ => rfl) agree.sound
      intro value
      rw [slots, if_neg fun both => classes both.2]

end Construction

def signalValues (proto : Option ObjectId) (state : SignalState) : List Value :=
  proto.toList.map .object ++ state.values

/-- The world is as before, but for one Signal more. Objects have come by the references that the
Signal holds and by those that are still to be given back. -/
structure Hosts (before : World) (bridge : BridgeId) (handle : ObjectId) (proto : Option ObjectId)
    (state : SignalState) (given : List Value) (after : World) : Prop where
  fresh : before.engine.heap.get? handle = none
  itself : ∃ classId slot,
    after.engine.heap.get? handle = some ⟨1, .native classId slot, proto, .empty⟩
  others : ∀ id, id ≠ handle → after.engine.heap.get? id =
    (before.engine.heap.get? id).map fun object =>
      { object with
        refCount := object.refCount + (signalValues proto state ++ given).count (.object id) }
  apart : .object handle ∉ signalValues proto state ++ given
  signals : ∀ other value, after.signal? other value =
    if other = bridge ∧ value = .object handle then some state else before.signal? other value
  bridges : ∀ id, (after.bridge? id).map (fun bridge => (bridge.classId, bridge.config)) =
    (before.bridge? id).map fun bridge => (bridge.classId, bridge.config)
  total : after.engine.finalized = before.engine.finalized

structure Building (before : World) (bridge : BridgeId) (link : Option StrongRef) (proto : Value)
    (classId : ClassId) : Prop where
  grounded : before.Grounded
  paired : before.Paired
  links : ∀ held, link = some held → held.value.Within before.size
  known : proto.Within before.size
  ofClass : (before.linked link).signalClass? bridge = some classId

def withInstance (before : World) (link : Option StrongRef) (proto : Value)
    (classId : ClassId) : World :=
  ((before.linked link).duplicate proto).allocateInstance proto classId

section Building

variable {before : World} {bridge : BridgeId} {link : Option StrongRef} {proto : Value}
  {classId : ClassId}

/-- The link and one reference to the prototype are counted before the instance is made. -/
theorem raised_prototype (before : World) (link : Option StrongRef) (proto : Value) :
    Raised before ((before.linked link).duplicate proto) fun id =>
      (link.toList.map StrongRef.value).count (.object id) + [proto].count (.object id) :=
  (raised_linked before link).trans (raised_duplicate _ proto)

theorem next_prototype (before : World) (link : Option StrongRef) (proto : Value) :
    ((before.linked link).duplicate proto).nextValue = before.nextValue :=
  (raised_prototype before link proto).next

theorem building_of_made {target : Value} (grounded : before.Grounded) (paired : before.Paired)
    (links : ∀ held, link = some held → held.value.Within before.size)
    (sought : (before.linked link).signalPrototype? bridge target = .ok proto)
    (ofClass : (before.linked link).signalClass? bridge = some classId) :
    before.Building bridge link proto classId where
  grounded := grounded
  paired := paired
  links := links
  known := by
    rw [← (raised_linked before link).size]
    exact within_of_signal_prototype ((changes_linked before link).grounded grounded) sought
  ofClass := ofClass

theorem rest_with_instance (before : World) (link : Option StrongRef) (proto : Value)
    (classId : ClassId) :
    (before.withInstance link proto classId).bridges = before.bridges ∧
      (before.withInstance link proto classId).engine =
        { before.engine with heap := (before.withInstance link proto classId).engine.heap } := by
  have raised := raised_prototype before link proto
  unfold withInstance allocateInstance
  split
  · have again := raised.trans (raised_duplicate _ proto)
    refine ⟨again.bridges, ?_⟩
    simp only [allocate]
    rw [again.engine]
  · refine ⟨raised.bridges, ?_⟩
    simp only [allocate]
    rw [raised.engine]

theorem get_next_with_instance (before : World) (link : Option StrongRef) (proto : Value)
    (classId : ClassId) :
    (before.withInstance link proto classId).engine.heap.get? before.engine.heap.nextId =
      some ⟨1, .native classId none, before.prototypeOf proto, .empty⟩ := by
  have next := Value.object.inj (next_prototype before link proto)
  unfold prototypeOf
  rw [← next, ← (raised_prototype before link proto).alive]
  exact get_next_allocate_instance proto classId

theorem get_other_with_instance (before : World) (link : Option StrongRef) (proto : Value)
    (classId : ClassId) {id : ObjectId} (other : id ≠ before.engine.heap.nextId) :
    (before.withInstance link proto classId).engine.heap.get? id =
      (before.engine.heap.get? id).map fun object =>
        { object with
          refCount := object.refCount + (link.toList.map StrongRef.value).count (.object id)
            + 2 * [proto].count (.object id) } := by
  have next := Value.object.inj (next_prototype before link proto)
  unfold withInstance
  rw [get_other_allocate_instance proto classId (by rwa [next]),
    (raised_prototype before link proto).objects, Option.map_map]
  congr 1
  funext object
  simp only [Function.comp_apply, Object.mk.injEq, and_true]
  omega

theorem Building.changes (building : Building before bridge link proto classId) :
    Changes before (before.withInstance link proto classId) := by
  obtain ⟨-, defined⟩ := class_of_bridge_of_signal_class building.ofClass
  have duplicated := changes_duplicate (before.linked link) proto
  have early := (changes_linked before link).trans duplicated
  exact early.trans (changes_allocate_instance (is_defined_of_persists duplicated.persists defined))

/-- One of the two references to the prototype may be given back. -/
theorem Building.counted (building : Building before bridge link proto classId) :
    ∀ object, (before.withInstance link proto classId).object? proto = some object →
      2 ≤ object.refCount := by
  apply counted_allocate_instance
  · rw [(raised_prototype before link proto).size]
    exact building.known
  · exact fun object found => object_duplicate found

theorem Building.awaits (building : Building before bridge link proto classId) :
    (before.withInstance link proto classId).Awaits bridge before.nextValue := by
  obtain ⟨ofBridge, -⟩ := class_of_bridge_of_signal_class building.ofClass
  obtain ⟨table, found, rfl⟩ := Option.map_eq_some_iff.1 ofBridge
  have bridges := (rest_with_instance before link proto table.classId).1
  refine ⟨table, ?_, ?_⟩
  · rw [← found, (raised_linked before link).bridge]
    unfold bridge?
    rw [bridges]
  · rw [← next_prototype before link proto]
    exact kind_next_allocate_instance proto table.classId

theorem Building.released (building : Building before bridge link proto classId) :
    Changes before ((before.withInstance link proto classId).release proto).1 ∧
      ((before.withInstance link proto classId).release proto).1.Paired := by
  have changes := building.changes
  have grounded := changes.grounded building.grounded
  have all : Changes before ((before.withInstance link proto classId).release proto).1 :=
    changes.trans (plain_release grounded proto).changes
  have lowered := lowered_release (before.withInstance link proto classId) proto
  have bridges := (rest_with_instance before link proto classId).1
  refine ⟨all, building.paired.of_bridges ?_ all.slot_key⟩
  intro id
  rw [lowered.tables]
  unfold bridge?
  rw [bridges]

/-- What a live object gains in the end as the prototype is the reference of the instance. -/
theorem count_prototype (proto : Value) {id : ObjectId} {object : Object}
    (found : before.engine.heap.get? id = some object) :
    ((before.prototypeOf proto).toList.map Value.object).count (.object id) =
      [proto].count (.object id) := by
  unfold prototypeOf
  split
  · cases proto <;> simp [Value.object?]
  · rename_i dead
    have other : proto ≠ .object id := by
      rintro rfl
      simp [isAlive, object?, Value.object?, found] at dead
    simp [other]

theorem ne_next_of_within {world : World} {value : Value} (within : value.Within world.size) :
    value ≠ world.nextValue := by
  rintro rfl
  exact Nat.lt_irrefl _ within

/-- Giving the second reference to the prototype back leaves the instance as it was made. -/
theorem Building.waiting (building : Building before bridge link proto classId) :
    ((before.withInstance link proto classId).release proto).1.engine.heap.get?
      before.engine.heap.nextId =
        some ⟨1, .native classId none, before.prototypeOf proto, .empty⟩ := by
  have uncounted : [proto].count (.object before.engine.heap.nextId) = 0 := by
    rw [List.count_eq_zero, List.mem_singleton]
    exact fun same => ne_next_of_within building.known same.symm
  rw [(lowered_release _ proto).objects, get_next_with_instance, uncounted]
  rfl

theorem get_other_released (before : World) (link : Option StrongRef) (proto : Value)
    (classId : ClassId) {id : ObjectId} (other : id ≠ before.engine.heap.nextId) :
    ((before.withInstance link proto classId).release proto).1.engine.heap.get? id =
      (before.engine.heap.get? id).map fun object =>
        { object with
          refCount := object.refCount
            + (signalValues (before.prototypeOf proto) ⟨none, link⟩).count (.object id) } := by
  rw [(lowered_release _ proto).objects, get_other_with_instance before link proto classId other,
    Option.map_map]
  cases held : before.engine.heap.get? id with
  | none => rfl
  | some object =>
      have counts := count_prototype proto held
      simp only [Option.map_some, Function.comp_apply, signalValues, SignalState.values,
        SignalState.held, Option.toList_none, List.nil_append, List.count_append, counts,
        Option.some.injEq, Object.mk.injEq, and_true]
      omega

theorem Building.apart (building : Building before bridge link proto classId) :
    before.nextValue ∉ signalValues (before.prototypeOf proto) ⟨none, link⟩ := by
  simp only [signalValues, SignalState.values, SignalState.held, Option.toList_none,
    List.nil_append, List.mem_append, List.mem_map, Option.mem_toList, prototypeOf, not_or]
  refine ⟨?_, ?_⟩
  · rintro ⟨id, named, same⟩
    split at named
    · cases proto with
      | object place =>
          cases named
          exact ne_next_of_within building.known same
      | _ => cases named
    · cases named
  · rintro ⟨held, named, same⟩
    exact ne_next_of_within (building.links held named) same

/-- A construction that is carried through leaves one Signal more, which is empty. -/
theorem Building.hosts (building : Building before bridge link proto classId) (route : Route)
    (room : (((before.withInstance link proto classId).release proto).1.bindSignal bridge route
      before.nextValue link).1.Roomy) :
    before.Hosts bridge before.engine.heap.nextId (before.prototypeOf proto) ⟨none, link⟩ []
        (((before.withInstance link proto classId).release proto).1.bindSignal bridge route
          before.nextValue link).1 ∧
      (((before.withInstance link proto classId).release proto).1.bindSignal bridge route
        before.nextValue link).1.Paired := by
  obtain ⟨changes, paired⟩ := building.released
  have grounded := building.changes.grounded building.grounded
  have lowered := lowered_release (before.withInstance link proto classId) proto
  have awaits : ((before.withInstance link proto classId).release proto).1.Awaits bridge
      before.nextValue := building.awaits.of_changes (plain_release grounded proto).changes
  have signals := @signal_bind_signal _ bridge before.nextValue paired awaits route link
    fun later found => room bridge later found
  simp only [changes.signal] at signals
  have bound := paired.bind awaits room
  obtain ⟨bridges, engine⟩ := rest_with_instance before link proto classId
  obtain ⟨table, found, kind⟩ := awaits
  have waiting := building.waiting
  have native : ObjectKind.native classId none = .native table.classId none := by
    have kinds := kind_object ((before.withInstance link proto classId).release proto).1
      before.engine.heap.nextId
    rw [waiting] at kinds
    exact Option.some.inj (kinds.symm.trans kind)
  obtain ⟨itself, others⟩ := get_bind_signal found waiting native route link
  refine ⟨⟨Heap.get_eq_none_of_size_le (Nat.le_refl _), ⟨_, _, itself⟩, ?_, ?_, signals, ?_, ?_⟩,
    bound⟩
  · intro id other
    rw [List.append_nil]
    exact (others id other).trans (get_other_released before link proto classId other)
  · rw [List.append_nil]
    exact building.apart
  · intro id
    have same := lowered.setting.bridges id
    have earlier : (before.withInstance link proto classId).bridge? id = before.bridge? id := by
      unfold bridge?
      rw [bridges]
    rw [earlier] at same
    rw [bridge_bind_signal found, ← same]
    split
    · rename_i here
      rw [here, found]
      rfl
    · rfl
  · rw [bind_signal_eq found]
    change (bindHandle _ bridge before.nextValue _).engine.finalized = _
    rw [total_bind_handle]
    change ((before.withInstance link proto classId).release proto).1.engine.finalized = _
    rw [lowered.total, engine]

end Building

def entered (world : World) (call : Call) : World :=
  match call.route with
  | .direct => world.beginCall call.bridge
  | .script => world

end World

def Call.closing (call : Call) : List Task :=
  match call.route with
  | .direct => [.endCall call.bridge]
  | .script => []

namespace World

section Entering

variable {world begun after : World} {bridge : BridgeId} {handle : ObjectId}
  {proto : Option ObjectId} {state : SignalState} {given : List Value}

theorem place_eq (world : World) (call : Call) :
    world.place call =
      (((world.entered call).enterSignal call.bridge call.entry call.route call.receiver
          call.arguments).1,
        ((world.entered call).enterSignal call.bridge call.entry call.route call.receiver
          call.arguments).2 ++ call.closing) := by
  obtain ⟨bridge, entry, route, receiver, arguments⟩ := call
  cases route with
  | direct => rfl
  | script => simp [place, entered, Call.closing]

theorem changes_entered (world : World) (call : Call) : Changes world (world.entered call) := by
  unfold entered
  split
  · exact changes_begin_call world call.bridge
  · exact .refl

theorem lowered_entered (world : World) (call : Call) :
    Lowered world (world.entered call) fun _ => 0 := by
  unfold entered
  split
  · exact lowered_activity world call.bridge (· + 1)
  · exact .refl world

theorem Paired.entered (paired : world.Paired) (call : Call) : (world.entered call).Paired :=
  paired.of_bridges (lowered_entered world call).tables (lowered_entered world call).slot_key

/-- Where references are given back that are not the last ones, less is still to be given
back. -/
theorem Hosts.lowered {before : World} (hosts : before.Hosts bridge handle proto state given world)
    (lowered : Lowered world after fun id => given.count (.object id)) :
    before.Hosts bridge handle proto state [] after where
  fresh := hosts.fresh
  itself := by
    obtain ⟨classId, slot, found⟩ := hosts.itself
    refine ⟨classId, slot, ?_⟩
    have apart := hosts.apart
    rw [List.mem_append, not_or] at apart
    rw [lowered.objects, found, List.count_eq_zero.2 apart.2]
    rfl
  others := by
    intro id other
    rw [lowered.objects, hosts.others id other, Option.map_map]
    congr 1
    funext object
    simp only [Function.comp_apply, List.append_nil, List.count_append, Object.mk.injEq, and_true]
    omega
  apart := by
    have apart := hosts.apart
    rw [List.mem_append, not_or] at apart
    rw [List.append_nil]
    exact apart.1
  signals := by
    intro other value
    rw [← hosts.signals other value]
    exact signal_of_bound_state (lowered.bound_state other value)
  bridges := fun id => (lowered.setting.bridges id).trans (hosts.bridges id)
  total := lowered.total.trans hosts.total

/-- A call that began makes no difference to where a Signal is hosted. -/
theorem Hosts.of_lowered (hosts : begun.Hosts bridge handle proto state given after)
    (lowered : Lowered world begun fun _ => 0) :
    world.Hosts bridge handle proto state given after := by
  have objects : ∀ id, begun.engine.heap.get? id = world.engine.heap.get? id := by
    intro id
    rw [lowered.objects]
    cases world.engine.heap.get? id <;> rfl
  refine ⟨?_, hosts.itself, ?_, hosts.apart, ?_, ?_, hosts.total.trans lowered.total⟩
  · rw [← objects]
    exact hosts.fresh
  · intro id other
    rw [← objects]
    exact hosts.others id other
  · intro other value
    rw [hosts.signals, signal_of_bound_state (lowered.bound_state other value)]
  · exact fun id => (hosts.bridges id).trans (lowered.setting.bridges id)

end Entering

end World

namespace Machine

section Requests

variable {machine ended : Machine} {label : String} {command : Command} {keep : Option String}
  {call : Call} {early late : List Task} {reply : Reply}

theorem offered_of_call (calls : machine.world.request machine.read command = .call call) :
    command.Offered := by
  unfold World.request at calls
  split at calls <;> trivial

theorem closing_silent (call : Call) (label : String) :
    ∀ task ∈ call.closing ++ [.finish label], task.Silent := by
  unfold Call.closing
  split <;> simp [Task.Silent, Task.Native]

theorem closing_mild (call : Call) (label : String) :
    ∀ task ∈ call.closing ++ [.finish label], task.Mild := by
  unfold Call.closing
  split <;> simp [Task.Mild, Task.Follows]

theorem carried_closing (call : Call) (label : String) :
    (call.closing ++ [Task.finish label]).flatMap Task.carried = [] := by
  unfold Call.closing
  split <;> rfl

/-- The step of a call leaves what the entry point leaves, and then the call is closed. -/
theorem step_submit_call (idle : machine.agenda = [])
    (running : machine.world.engine.running = true)
    (calls : machine.world.request machine.read command = .call call) :
    (machine.submit (.act label command keep)).step.world =
        ((machine.world.entered call).enterSignal call.bridge call.entry call.route call.receiver
          call.arguments).1 ∧
      (machine.submit (.act label command keep)).step.agenda =
        ((machine.world.entered call).enterSignal call.bridge call.entry call.route call.receiver
          call.arguments).2 ++ (call.closing ++ [.finish label]) := by
  obtain ⟨world, agenda⟩ := @step_submit_of_allowed machine label command keep idle
    (call_command calls).1
  have performed : machine.world.perform machine.read command = machine.world.place call :=
    World.perform_request running (by rw [calls]; rfl)
  rw [performed, World.place_eq] at world agenda
  exact ⟨world, by rw [agenda, List.append_assoc]⟩

theorem Calm.answered (calm : machine.Calm)
    (agenda : machine.agenda = early ++ .answer reply :: late)
    (silent : ∀ task ∈ early ++ late, task.Silent) {fuel : Nat} (ran : machine.run fuel = ended)
    (idle : ended.agenda = []) : ended.frame.reply = reply := by
  have keeping : machine.Keeping machine.world.client machine.frame reply :=
    .waiting agenda silent rfl rfl
  rw [(keeping.ended calm ran idle).2]

theorem Attended.hosts_bind (attended : machine.Attended) {begun : World} {link : Option StrongRef}
    {proto : Value} {classId : ClassId} (building : begun.Building call.bridge link proto classId)
    (world : machine.world = begun.withInstance link proto classId)
    (agenda : machine.agenda = .release proto ::
      .bind call.bridge call.route begun.nextValue link :: (call.closing ++ [.finish label]))
    {fuel : Nat} (ran : machine.run fuel = ended) (idle : ended.agenda = [])
    (room : ended.world.Roomy) :
    ended.frame.reply = .value begun.nextValue ∧
      begun.Hosts call.bridge begun.engine.heap.nextId (begun.prototypeOf proto) ⟨none, link⟩ []
        ended.world ∧
      ended.world.Paired := by
  -- one reference to the prototype is given back, and it is not the last one
  have nothing : (machine.world.release proto).2 = [] := by
    rw [world]
    exact World.release_of_counted building.counted
  obtain ⟨worldOnce, agendaOnce, -⟩ := step_of_native agenda trivial (by simp)
  obtain ⟨fuelOnce, ranOnce⟩ := run_of_busy ran idle (by simp [agenda])
  have once := attended.step
  simp only [World.handle, nothing, List.nil_append] at worldOnce agendaOnce
  -- the instance is bound
  obtain ⟨worldTwice, agendaTwice, -⟩ := step_of_native agendaOnce trivial (by simp)
  obtain ⟨fuelTwice, ranTwice⟩ := run_of_busy ranOnce idle (by simp [agendaOnce])
  have twice := once.step
  have grounded := building.changes.grounded building.grounded
  have released := (World.plain_release grounded proto).changes
  obtain ⟨table, found, -⟩ := building.awaits.of_changes released
  rw [worldOnce, world] at worldTwice agendaTwice
  simp only [World.handle, World.bind_signal_eq found, List.singleton_append] at agendaTwice
  have roomTwice := twice.calm.roomy_of_run fuelTwice (by rw [ranTwice]; exact room)
  rw [worldTwice] at roomTwice
  obtain ⟨hosts, paired⟩ := building.hosts call.route roomTwice
  -- the rest closes the call
  have carried : machine.step.step.carried = [] := by
    rw [Machine.carried, agendaTwice]
    exact carried_closing call label
  have mild : ∀ task ∈ machine.step.step.agenda, task.Mild := by
    intro task member
    rw [agendaTwice] at member
    rcases List.mem_cons.1 member with rfl | later
    · exact .inl trivial
    · exact closing_mild call label task later
  have lowered := lowered_of_run twice.calm mild (by simp [carried]) ranTwice idle
  rw [carried, worldTwice] at lowered
  refine ⟨?_, hosts.lowered lowered, paired.of_bridges lowered.tables lowered.slot_key⟩
  have answered : ended.frame.reply = call.route.reply (.ok begun.nextValue) :=
    @Calm.answered _ _ [] _ _ twice.calm agendaTwice (closing_silent call label) _ ranTwice idle
  rw [answered]
  cases call.route <;> rfl

/-- A construction that answers with a handle leaves one Signal more, which is empty, and nothing
else is different. -/
theorem Attended.hosts_construct {handle : Value} (attended : machine.Attended)
    (idle : machine.agenda = []) (grounded : machine.world.Grounded)
    (paired : machine.world.Paired)
    (calls : machine.world.request machine.read command = .call call)
    (constructs : call.entry = .construct)
    (linked : ∀ id, call.arguments = [.object id] → machine.world.isAlive (.object id) = true)
    (completes : machine.Completes (.act label command keep) ended)
    (returned : ended.frame.reply = .value handle) (room : ended.world.Roomy) :
    ∃ id proto, handle = .object id ∧
      machine.world.Hosts call.bridge id proto ⟨none, World.linkOf call.arguments⟩ []
        ended.world ∧
      ended.world.Paired := by
  have tidy := attended.calm.tidy
  obtain ⟨fuel, ran, done⟩ := run_of_completes completes
  have begins := @Attended.begin machine label command keep attended idle
    (permitted_of_offered (offered_of_call calls))
  obtain ⟨world, agenda⟩ :=
    @step_submit_call machine label command keep call idle tidy.running calls
  have entered := World.lowered_entered machine.world call
  have builds := (machine.world.entered call).builds_signal call.bridge call.route call.receiver
    call.arguments
  simp only [constructs, World.enterSignal] at world agenda
  generalize (machine.world.entered call).constructSignal call.bridge call.route call.receiver
    call.arguments = outcome at builds world agenda
  cases builds with
  | @failed after tasks failure gives =>
      have shape : (machine.submit (.act label command keep)).step.agenda =
          tasks ++ .answer (call.route.reply (.error failure)) ::
            (call.closing ++ [.finish label]) := by
        rw [agenda]
        simp [World.after]
      have silent : ∀ task ∈ tasks ++ (call.closing ++ [.finish label]), task.Silent := by
        intro task member
        rcases List.mem_append.1 member with early | late
        · have giving := gives task early
          cases task <;> trivial
        · exact closing_silent call label task late
      have failed := begins.calm.answered shape silent ran done
      rw [returned] at failed
      exact absurd failed.symm (reply_error_ne_value call.route failure handle)
  | @made proto classId sought ofClass =>
      have changes := World.changes_entered machine.world call
      have links : ∀ held, World.linkOf call.arguments = some held →
          held.value.Within (machine.world.entered call).size := by
        intro held named
        unfold World.linkOf at named
        split at named
        · rename_i id alone
          cases named
          obtain ⟨place, object, same, found⟩ := World.object_of_alive (linked id alone)
          cases same
          exact Nat.lt_of_lt_of_le (World.within_of_get found) changes.persists.size
        · cases named
      have building := World.building_of_made (changes.grounded grounded) (paired.entered call)
        links sought ofClass
      rw [(World.raised_linked _ _).next] at agenda
      obtain ⟨answered, hosts, after⟩ := begins.hosts_bind building world agenda ran done room
      rw [returned] at answered
      cases answered
      exact ⟨_, _, rfl, hosts.of_lowered entered, after⟩

end Requests

end Machine

end ScriptSignal
