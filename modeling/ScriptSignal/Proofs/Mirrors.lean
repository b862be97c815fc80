import ScriptSignal.Proofs.Cascades
import ScriptSignal.Proofs.Lives

/-!
# A world and its mirror without the waste

Where objects wait for a collection, some that are still there are waste: only other waste
refers to them. A world in which objects are reclaimed at once mirrors it. It has the same
objects and the same Signals without the waste, and its counts are lower by what the waste
holds. Slots may hold different keys, because tables were emptied at different times. Whoever
keeps away from the waste reads the same in both, and whatever is done to both leaves one the
mirror of the other.
-/

namespace ScriptSignal

set_option autoImplicit false

def ObjectKind.bare : ObjectKind → ObjectKind
  | .native classId _ => .native classId none
  | kind => kind

def ObjectKind.function? : ObjectKind → Option String
  | .function name => some name
  | _ => none

def Object.bare (object : Object) : Object := { object with kind := object.kind.bare }

/-- A bare object with so many more references. -/
def Object.laden (more : Nat) (object : Object) : Object :=
  { object.bare with refCount := object.refCount + more }

theorem Object.parts_of_laden {full object : Object} {more : Nat}
    (alike : full.bare = object.laden more) :
    full.refCount = object.refCount + more ∧ full.kind.bare = object.kind.bare ∧
      full.proto = object.proto ∧ full.properties = object.properties := by
  simpa [Object.bare, Object.laden] using alike

theorem Object.laden_of_counts {full object : Object} {more few many less : Nat}
    (alike : full.bare = object.laden more) (same : many = few + less) :
    ({ full with refCount := many } : Object).bare =
      ({ object with refCount := few } : Object).laden less := by
  obtain ⟨-, kind, proto, properties⟩ := Object.parts_of_laden alike
  simp [Object.bare, Object.laden, kind, proto, properties, same]

/-- A value that is no handle of the waste. -/
def Value.Outside (waste : Finset ObjectId) (value : Value) : Prop :=
  ∀ id, value = .object id → id ∉ waste

theorem Value.outside_object {waste : Finset ObjectId} {id : ObjectId} (outside : id ∉ waste) :
    (Value.object id).Outside waste := by
  rintro other same
  cases same
  exact outside

theorem Value.Outside.apart {waste : Finset ObjectId} {value : Value}
    (outside : value.Outside waste) {id : ObjectId} (member : id ∈ waste) (one other : BridgeId) :
    ¬(one = other ∧ .object id = value) :=
  fun both => outside id both.2.symm member

namespace World

/-- The second world mirrors the first one, in which the waste is what it was in an earlier
world. -/
structure Mirrors (origin : World) (waste : Finset ObjectId) (deferred immediate : World) :
    Prop where
  setting : SameSetting deferred immediate
  client : immediate.client = deferred.client
  total : immediate.engine.finalized = deferred.engine.finalized + waste.card
  /-- The waste, and what it refers to, was allocated. -/
  known : ∀ id, id ∈ waste ∨ origin.graph.heldBy waste id ≠ 0 → id.index < deferred.size
  gone : ∀ id ∈ waste, immediate.engine.heap.get? id = none
  kept : ∀ id ∈ waste, (deferred.engine.heap.get? id).map Object.bare =
    (origin.engine.heap.get? id).map Object.bare
  bound : ∀ id ∈ waste, ∀ bridge,
    deferred.signal? bridge (.object id) = origin.signal? bridge (.object id)
  objects : ∀ id, id ∉ waste → (deferred.engine.heap.get? id).map Object.bare =
    (immediate.engine.heap.get? id).map (Object.laden (origin.graph.heldBy waste id))
  signals : ∀ bridge id, id ∉ waste →
    immediate.signal? bridge (.object id) = deferred.signal? bridge (.object id)

structure Alike (before after : World) : Prop where
  setting : SameSetting before after
  client : after.client = before.client
  total : after.engine.finalized = before.engine.finalized
  objects : ∀ id, (after.engine.heap.get? id).map Object.bare =
    (before.engine.heap.get? id).map Object.bare

section Alikes

variable {before world after : World}

theorem Alike.refl (world : World) : Alike world world :=
  ⟨.refl world, rfl, rfl, fun _ => rfl⟩

theorem Alike.trans (first : Alike before world) (last : Alike world after) :
    Alike before after where
  setting := first.setting.trans last.setting
  client := last.client.trans first.client
  total := last.total.trans first.total
  objects := fun id => (last.objects id).trans (first.objects id)

theorem alike_emit (world : World) (event : Event) : Alike world (world.emit event) :=
  ⟨same_setting_emit world event, rfl, rfl, fun _ => rfl⟩

theorem alike_modify_bridge (world : World) (id : BridgeId) {change : Bridge → Bridge}
    (same : ∀ bridge, (change bridge).classId = bridge.classId ∧
      (change bridge).config = bridge.config) : Alike world (world.modifyBridge id change) :=
  ⟨same_setting_modify_bridge world id same, rfl, rfl, fun _ => rfl⟩

theorem alike_modify_states (world : World) (id : BridgeId)
    (change : Slab SignalState → Slab SignalState) : Alike world (world.modifyStates id change) :=
  alike_modify_bridge world id fun _ => ⟨rfl, rfl⟩

theorem alike_bind_handle (world : World) (bridge : BridgeId) (handle : Value)
    (key : Option Key) : Alike world (world.bindHandle bridge handle key) := by
  rcases bind_handle_cases world bridge handle key with same | ⟨held, -, written⟩
  · rw [same]
    exact .refl world
  rw [written]
  rcases set_slot_cases world handle held.classId key with
    ⟨same, -⟩ | ⟨place, object, slot, -, found, native, same⟩
  · rw [same]
    exact .refl world
  · rw [same]
    refine ⟨same_setting_put world place _, rfl, rfl, ?_⟩
    intro id
    by_cases here : id = place
    · subst here
      have now : (world.putObject id { object with
          kind := .native held.classId (key.map Key.toBits) }).engine.heap.get? id =
            some { object with kind := .native held.classId (key.map Key.toBits) } :=
        Heap.get_put_same found _
      simp [now, found, Object.bare, native, ObjectKind.bare]
    · exact congrArg (Option.map Object.bare) (Heap.get_put_other _ here _)

theorem alike_finalize_signal (world : World) (bridge : BridgeId) (handle : Value) :
    Alike world (world.finalizeSignal bridge handle).1 := by
  have unbound := alike_bind_handle world bridge handle none
  rcases finalize_signal_cases world bridge handle with
    ⟨same, -⟩ | ⟨key, state, -, -, same⟩ | ⟨key, -, -, same⟩
  · rw [same]
    exact alike_emit world _
  · rw [same]
    exact (unbound.trans (alike_modify_states _ bridge _)).trans (alike_emit _ _)
  · rw [same]
    exact unbound.trans (alike_emit _ _)

theorem alike_bind_signal (world : World) (bridge : BridgeId) (route : Route) (handle : Value)
    (link : Option StrongRef) : Alike world (world.bindSignal bridge route handle link).1 := by
  cases found : world.bridge? bridge with
  | none => simpa [bindSignal, found, World.after] using Alike.refl world
  | some held =>
      rw [bind_signal_eq found]
      have inserted := alike_modify_states world bridge fun states => states.insert ⟨none, link⟩
      exact (inserted.trans (alike_bind_handle _ bridge handle _)).trans (alike_emit _ _)

end Alikes

section Reading

variable {origin deferred immediate : World} {waste : Finset ObjectId}

theorem Mirrors.size (mirrors : Mirrors origin waste deferred immediate) :
    immediate.size = deferred.size :=
  mirrors.setting.places

theorem Mirrors.next (mirrors : Mirrors origin waste deferred immediate) :
    immediate.engine.heap.nextId = deferred.engine.heap.nextId :=
  congrArg ObjectId.mk mirrors.setting.places

theorem Mirrors.registry (mirrors : Mirrors origin waste deferred immediate) :
    immediate.engine.registry = deferred.engine.registry :=
  mirrors.setting.registry

theorem Mirrors.class_of_bridge (mirrors : Mirrors origin waste deferred immediate)
    (id : BridgeId) :
    (immediate.bridge? id).map Bridge.classId = (deferred.bridge? id).map Bridge.classId := by
  have same := congrArg (Option.map Prod.fst) (mirrors.setting.bridges id)
  simpa only [Option.map_map, Function.comp_def] using same

theorem Mirrors.config (mirrors : Mirrors origin waste deferred immediate) (id : BridgeId) :
    immediate.config id = deferred.config id := by
  have same := congrArg (Option.map Prod.snd) (mirrors.setting.bridges id)
  simp only [Option.map_map, Function.comp_def] at same
  have read : ∀ world : World, world.config id =
      ((world.bridge? id).map fun bridge => bridge.config).getD {} := by
    intro world
    unfold World.config
    cases world.bridge? id <;> rfl
  rw [read, read, same]

theorem Mirrors.missing (mirrors : Mirrors origin waste deferred immediate) {id : ObjectId}
    (outside : id ∉ waste) (missing : immediate.engine.heap.get? id = none) :
    deferred.engine.heap.get? id = none := by
  have same := mirrors.objects id outside
  rwa [missing, Option.map_none, Option.map_eq_none_iff] at same

theorem Mirrors.found (mirrors : Mirrors origin waste deferred immediate) {id : ObjectId}
    (outside : id ∉ waste) {object : Object} (found : immediate.engine.heap.get? id = some object) :
    ∃ full, deferred.engine.heap.get? id = some full ∧
      full.bare = object.laden (origin.graph.heldBy waste id) := by
  have same := mirrors.objects id outside
  rwa [found, Option.map_some, Option.map_eq_some_iff] at same

theorem Mirrors.outside_of_alive (mirrors : Mirrors origin waste deferred immediate) {id : ObjectId}
    (alive : immediate.isAlive (.object id) = true) : id ∉ waste := by
  intro member
  simp [isAlive, object?, Value.object?, mirrors.gone id member] at alive

theorem bind_of_map {α β : Type} {one other : Option α} {read : α → Option β}
    (same : one.map read = other.map read) : one.bind read = other.bind read := by
  cases one with
  | none =>
      cases other with
      | none => rfl
      | some last => cases same
  | some first =>
      cases other with
      | none => cases same
      | some last => exact Option.some.inj same

/-- What can be read of the object of a value, whatever its count and its slot are. -/
theorem Mirrors.object (mirrors : Mirrors origin waste deferred immediate) {value : Value}
    (outside : value.Outside waste) {α : Type} (read : Object → α)
    (blind : ∀ more object, read (object.laden more) = read object) :
    (immediate.object? value).map read = (deferred.object? value).map read := by
  have bare : ∀ object : Object, read object.bare = read object := blind 0
  cases value with
  | object id =>
      have same := congrArg (Option.map read) (mirrors.objects id (outside id rfl))
      simp only [Option.map_map, Function.comp_def, blind, bare] at same
      exact same.symm
  | _ => rfl

theorem Mirrors.is_alive (mirrors : Mirrors origin waste deferred immediate) {value : Value}
    (outside : value.Outside waste) : immediate.isAlive value = deferred.isAlive value := by
  have same := congrArg Option.isSome (mirrors.object outside (fun _ => ()) fun _ _ => rfl)
  rwa [Option.isSome_map, Option.isSome_map] at same

theorem Mirrors.prototype (mirrors : Mirrors origin waste deferred immediate) {value : Value}
    (outside : value.Outside waste) : immediate.prototype? value = deferred.prototype? value := by
  unfold prototype?
  rw [bind_of_map (mirrors.object outside Object.proto fun _ _ => rfl)]

theorem Mirrors.function_name (mirrors : Mirrors origin waste deferred immediate) {value : Value}
    (outside : value.Outside waste) :
    immediate.functionName? value = deferred.functionName? value := by
  have same := mirrors.object outside (fun object => object.kind.function?) fun _ object => by
    simp only [Object.laden, Object.bare]
    cases object.kind <;> rfl
  have read : ∀ world : World, world.functionName? value =
      (world.object? value).bind fun object => object.kind.function? := by
    intro world
    unfold functionName?
    cases world.object? value with
    | none => rfl
    | some object => cases native : object.kind <;> simp [native, ObjectKind.function?]
  rw [read, read, bind_of_map same]

theorem Mirrors.is_function (mirrors : Mirrors origin waste deferred immediate) {value : Value}
    (outside : value.Outside waste) : immediate.isFunction value = deferred.isFunction value :=
  congrArg Option.isSome (mirrors.function_name outside)

theorem Mirrors.class_of (mirrors : Mirrors origin waste deferred immediate) {value : Value}
    (outside : value.Outside waste) : immediate.classOf? value = deferred.classOf? value := by
  have same := mirrors.object outside (fun object => object.kind.class?) fun _ object => by
    simp only [Object.laden, Object.bare]
    cases object.kind <;> rfl
  have read : ∀ world : World, world.classOf? value =
      (world.object? value).bind fun object => object.kind.class? := by
    intro world
    rw [class_of_eq, kind?, Option.bind_map]
    rfl
  rw [read, read, bind_of_map same]

/-- The prototypes of an object that is no waste are no waste either. -/
theorem Mirrors.lookup (mirrors : Mirrors origin waste deferred immediate)
    (covered : immediate.Covered) (key : String) (steps : Nat) {id : ObjectId}
    (outside : id ∉ waste) :
    immediate.engine.heap.lookupWithin key steps id =
      deferred.engine.heap.lookupWithin key steps id := by
  induction steps generalizing id with
  | zero => rfl
  | succ steps induction =>
      unfold Heap.lookupWithin
      cases found : immediate.engine.heap.get? id with
      | none => rw [mirrors.missing outside found]
      | some object =>
          obtain ⟨full, reached, alike⟩ := mirrors.found outside found
          obtain ⟨-, -, proto, properties⟩ := Object.parts_of_laden alike
          rw [reached]
          dsimp only
          rw [properties, proto]
          cases object.properties.find? key with
          | some value => rfl
          | none =>
              cases next : object.proto with
              | none => rfl
              | some above =>
                  have owned : .object above ∈ object.owned := by simp [Object.owned, next]
                  exact induction (mirrors.outside_of_alive (alive_of_owned covered found owned))

theorem Mirrors.property (mirrors : Mirrors origin waste deferred immediate)
    (covered : immediate.Covered) {value : Value} (outside : value.Outside waste) (key : String) :
    immediate.property? value key = deferred.property? value key := by
  cases value with
  | object id =>
      simp only [property?, Heap.lookup]
      rw [mirrors.lookup covered key _ (outside id rfl)]
  | _ => rfl

theorem Mirrors.is_defined (mirrors : Mirrors origin waste deferred immediate)
    (classId : ClassId) : immediate.isDefined classId = deferred.isDefined classId := by
  unfold isDefined
  rw [mirrors.registry]

theorem Mirrors.class_prototype (mirrors : Mirrors origin waste deferred immediate)
    (classId : ClassId) : immediate.classPrototype? classId = deferred.classPrototype? classId := by
  unfold classPrototype?
  rw [mirrors.registry]

theorem Mirrors.signal_prototype (mirrors : Mirrors origin waste deferred immediate)
    (covered : immediate.Covered) (id : BridgeId) {target : Value}
    (outside : target.Outside waste) :
    immediate.signalPrototype? id target = deferred.signalPrototype? id target := by
  unfold signalPrototype?
  rw [mirrors.class_of_bridge, mirrors.property covered outside]
  simp only [mirrors.class_prototype]

theorem Mirrors.signal_class (mirrors : Mirrors origin waste deferred immediate) (id : BridgeId) :
    immediate.signalClass? id = deferred.signalClass? id := by
  unfold signalClass?
  rw [mirrors.class_of_bridge, funext mirrors.is_defined]

theorem Mirrors.signal (mirrors : Mirrors origin waste deferred immediate) {handle : Value}
    (outside : handle.Outside waste) (bridge : BridgeId) :
    immediate.signal? bridge handle = deferred.signal? bridge handle := by
  cases handle with
  | object id => exact mirrors.signals bridge id (outside id rfl)
  | _ => rw [signal_of_dead rfl, signal_of_dead rfl]

/-- A handle has the same state in both worlds, if under different keys, or none in either. -/
theorem Mirrors.bound_state (mirrors : Mirrors origin waste deferred immediate) {handle : Value}
    (outside : handle.Outside waste) (bridge : BridgeId) :
    (deferred.boundState bridge handle = .error .noContext ∧
        immediate.boundState bridge handle = .error .noContext) ∨
      ∃ key mirrored state, deferred.boundState bridge handle = .ok (key, state) ∧
        immediate.boundState bridge handle = .ok (mirrored, state) := by
  have same := mirrors.signal outside bridge
  cases held : deferred.signal? bridge handle with
  | none =>
      rw [held] at same
      exact .inl ⟨bound_state_of_no_signal held, bound_state_of_no_signal same⟩
  | some state =>
      rw [held] at same
      obtain ⟨key, bound⟩ := signal_eq_some_iff.1 held
      obtain ⟨mirrored, also⟩ := signal_eq_some_iff.1 same
      exact .inr ⟨key, mirrored, state, bound, also⟩

end Reading

section Writing

variable {origin deferred immediate first second : World} {waste : Finset ObjectId}

theorem SameSetting.square (setting : SameSetting deferred immediate)
    (left : SameSetting deferred first) (right : SameSetting immediate second)
    (client : second.client = first.client) : SameSetting first second where
  registry := by rw [right.registry, setting.registry, left.registry]
  places := by rw [right.places, setting.places, left.places]
  size := by rw [right.size, setting.size, left.size]
  bridges := fun id => by rw [right.bridges, setting.bridges, left.bridges]
  client := by rw [client]

theorem Mirrors.restate (mirrors : Mirrors origin waste deferred immediate)
    (left : Alike deferred first) (right : Alike immediate second)
    (edit : BridgeId → ObjectId → Option SignalState → Option SignalState)
    (spares : ∀ id ∈ waste, ∀ bridge held, edit bridge id held = held)
    (states : ∀ bridge id, first.signal? bridge (.object id) =
      edit bridge id (deferred.signal? bridge (.object id)))
    (mirrored : ∀ bridge id, second.signal? bridge (.object id) =
      edit bridge id (immediate.signal? bridge (.object id))) :
    Mirrors origin waste first second where
  setting := by
    apply mirrors.setting.square left.setting right.setting
    rw [right.client, mirrors.client, left.client]
  client := by rw [right.client, mirrors.client, left.client]
  total := by rw [right.total, mirrors.total, left.total]
  known := by
    have size : first.size = deferred.size := left.setting.places
    rw [size]
    exact mirrors.known
  gone := by
    intro id member
    have same := right.objects id
    rwa [mirrors.gone id member, Option.map_none, Option.map_eq_none_iff] at same
  kept := fun id member => (left.objects id).trans (mirrors.kept id member)
  bound := by
    intro id member bridge
    rw [states, spares id member]
    exact mirrors.bound id member bridge
  objects := by
    intro id outside
    have bare := mirrors.objects id outside
    have same := congrArg (Option.map fun object : Object =>
      { object with refCount := object.refCount + origin.graph.heldBy waste id }) (right.objects id)
    simp only [Option.map_map] at same
    rw [left.objects, bare]
    exact same.symm
  signals := by
    intro bridge id outside
    rw [states, mirrored, mirrors.signals bridge id outside]

theorem Mirrors.quiet (mirrors : Mirrors origin waste deferred immediate)
    (left : Alike deferred first) (right : Alike immediate second)
    (states : ∀ bridge handle, first.signal? bridge handle = deferred.signal? bridge handle)
    (mirrored : ∀ bridge handle, second.signal? bridge handle = immediate.signal? bridge handle) :
    Mirrors origin waste first second :=
  mirrors.restate left right (fun _ _ held => held) (fun _ _ _ _ => rfl)
    (fun bridge id => states bridge (.object id)) fun bridge id => mirrored bridge (.object id)

theorem Mirrors.emit (mirrors : Mirrors origin waste deferred immediate) (event other : Event) :
    Mirrors origin waste (deferred.emit event) (immediate.emit other) :=
  mirrors.quiet (alike_emit deferred event) (alike_emit immediate other) (fun _ _ => rfl)
    fun _ _ => rfl

theorem Mirrors.activity (mirrors : Mirrors origin waste deferred immediate) (id : BridgeId)
    (active : Nat → Nat) :
    Mirrors origin waste
      (deferred.modifyBridge id fun bridge => { bridge with active := active bridge.active })
      (immediate.modifyBridge id fun bridge => { bridge with active := active bridge.active }) :=
  mirrors.quiet (alike_modify_bridge deferred id fun _ => ⟨rfl, rfl⟩)
    (alike_modify_bridge immediate id fun _ => ⟨rfl, rfl⟩)
    (Changes.signal (.single (.activity deferred id active)))
    (Changes.signal (.single (.activity immediate id active)))

theorem Mirrors.change_client (mirrors : Mirrors origin waste deferred immediate)
    (client : Client) :
    Mirrors origin waste { deferred with client } { immediate with client } where
  setting := ⟨mirrors.setting.registry, mirrors.setting.places, mirrors.setting.size,
    mirrors.setting.bridges, rfl⟩
  client := rfl
  total := mirrors.total
  known := mirrors.known
  gone := mirrors.gone
  kept := mirrors.kept
  bound := mirrors.bound
  objects := mirrors.objects
  signals := mirrors.signals

theorem Mirrors.reserve (mirrors : Mirrors origin waste deferred immediate) :
    Mirrors origin waste deferred.reserveClass immediate.reserveClass where
  setting := ⟨congrArg Registry.reserve mirrors.registry, mirrors.setting.places,
    mirrors.setting.size, mirrors.setting.bridges, mirrors.setting.client⟩
  client := mirrors.client
  total := mirrors.total
  known := mirrors.known
  gone := mirrors.gone
  kept := mirrors.kept
  bound := mirrors.bound
  objects := mirrors.objects
  signals := mirrors.signals

theorem signal_put {world : World} {id : ObjectId} {object changed : Object}
    (found : world.engine.heap.get? id = some object) (same : changed.kind = object.kind)
    (bridge : BridgeId) (handle : Value) :
    (world.putObject id changed).signal? bridge handle = world.signal? bridge handle :=
  signal_of_same rfl fun _ => slot_key_of_kind (kind_put found same handle)

theorem Mirrors.put (mirrors : Mirrors origin waste deferred immediate) {id : ObjectId}
    (outside : id ∉ waste) {full object fullAfter objectAfter : Object}
    (foundFull : deferred.engine.heap.get? id = some full)
    (found : immediate.engine.heap.get? id = some object) (kindFull : fullAfter.kind = full.kind)
    (kind : objectAfter.kind = object.kind)
    (alike : fullAfter.bare = objectAfter.laden (origin.graph.heldBy waste id)) :
    Mirrors origin waste (deferred.putObject id fullAfter)
      (immediate.putObject id objectAfter) where
  setting := mirrors.setting.square (same_setting_put deferred id fullAfter)
    (same_setting_put immediate id objectAfter) mirrors.client
  client := mirrors.client
  total := mirrors.total
  known := by
    rw [size_put]
    exact mirrors.known
  gone := by
    intro other member
    have apart : other ≠ id := fun same => outside (same ▸ member)
    exact (Heap.get_put_other _ apart objectAfter).trans (mirrors.gone other member)
  kept := by
    intro other member
    have apart : other ≠ id := fun same => outside (same ▸ member)
    have same : (deferred.putObject id fullAfter).engine.heap.get? other =
        deferred.engine.heap.get? other := Heap.get_put_other _ apart fullAfter
    rw [same]
    exact mirrors.kept other member
  bound := by
    intro other member bridge
    rw [signal_put foundFull kindFull]
    exact mirrors.bound other member bridge
  objects := by
    intro other outsideOther
    by_cases same : other = id
    · subst same
      have full : (deferred.putObject other fullAfter).engine.heap.get? other = some fullAfter :=
        Heap.get_put_same foundFull fullAfter
      have mirrored : (immediate.putObject other objectAfter).engine.heap.get? other =
          some objectAfter := Heap.get_put_same found objectAfter
      rw [full, mirrored, Option.map_some, Option.map_some, alike]
    · have full : (deferred.putObject id fullAfter).engine.heap.get? other =
          deferred.engine.heap.get? other := Heap.get_put_other _ same fullAfter
      have mirrored : (immediate.putObject id objectAfter).engine.heap.get? other =
          immediate.engine.heap.get? other := Heap.get_put_other _ same objectAfter
      rw [full, mirrored]
      exact mirrors.objects other outsideOther
  signals := by
    intro bridge other outsideOther
    rw [signal_put foundFull kindFull, signal_put found kind]
    exact mirrors.signals bridge other outsideOther

theorem Mirrors.recount (mirrors : Mirrors origin waste deferred immediate) {id : ObjectId}
    (outside : id ∉ waste) {full object : Object} {count : Nat}
    (foundFull : deferred.engine.heap.get? id = some full)
    (found : immediate.engine.heap.get? id = some object) :
    Mirrors origin waste
      (deferred.putObject id { full with refCount := count + origin.graph.heldBy waste id })
      (immediate.putObject id { object with refCount := count }) := by
  obtain ⟨other, reached, alike⟩ := mirrors.found outside found
  cases foundFull.symm.trans reached
  obtain ⟨-, kind, proto, properties⟩ := Object.parts_of_laden alike
  refine mirrors.put outside foundFull found ?_ ?_ ?_
  · rfl
  · rfl
  · simp [Object.bare, Object.laden, kind, proto, properties]

theorem Mirrors.duplicate (mirrors : Mirrors origin waste deferred immediate) {value : Value}
    (outside : value.Outside waste) :
    Mirrors origin waste (deferred.duplicate value) (immediate.duplicate value) := by
  cases value with
  | object id =>
      cases found : immediate.engine.heap.get? id with
      | none =>
          have missing := mirrors.missing (outside id rfl) found
          simp only [World.duplicate, found, missing]
          exact mirrors.emit _ _
      | some object =>
          obtain ⟨full, reached, alike⟩ := mirrors.found (outside id rfl) found
          obtain ⟨counts, -⟩ := Object.parts_of_laden alike
          have written := @Mirrors.recount origin deferred immediate waste mirrors id
            (outside id rfl) full object (object.refCount + 1) reached found
          have more : full.refCount + 1 =
              object.refCount + 1 + origin.graph.heldBy waste id := by omega
          simp only [World.duplicate, found, reached]
          rw [more]
          exact written
  | _ => exact mirrors

theorem Mirrors.acquire (mirrors : Mirrors origin waste deferred immediate) {value : Value}
    (outside : value.Outside waste) :
    Mirrors origin waste (deferred.acquire value) (immediate.acquire value) :=
  (mirrors.duplicate outside).emit _ _

/-- A reference that is not the last one is given back in both worlds. -/
theorem Mirrors.release (mirrors : Mirrors origin waste deferred immediate) {value : Value}
    (outside : value.Outside waste)
    (counted : ∀ object, immediate.object? value = some object → 2 ≤ object.refCount) :
    Mirrors origin waste (deferred.release value).1 (immediate.release value).1 := by
  cases value with
  | object id =>
      cases found : immediate.engine.heap.get? id with
      | none =>
          have missing := mirrors.missing (outside id rfl) found
          simp only [World.release, releaseObject, found, missing]
          exact mirrors.emit _ _
      | some object =>
          obtain ⟨full, reached, alike⟩ := mirrors.found (outside id rfl) found
          obtain ⟨counts, -⟩ := Object.parts_of_laden alike
          have many := counted object found
          have written := @Mirrors.recount origin deferred immediate waste mirrors id
            (outside id rfl) full object (object.refCount - 1) reached found
          obtain ⟨count, references⟩ : ∃ count, object.refCount = count + 2 :=
            ⟨object.refCount - 2, by omega⟩
          have more : full.refCount = count + origin.graph.heldBy waste id + 1 + 1 := by omega
          have less : count + 1 + origin.graph.heldBy waste id =
              count + origin.graph.heldBy waste id + 1 := by omega
          simp only [World.release, releaseObject, found, reached, references, more]
          simp only [references, less, Nat.add_one_sub_one] at written
          simpa using written
  | _ => exact mirrors

theorem Mirrors.extend (mirrors : Mirrors origin waste deferred immediate) {kind : ObjectKind}
    {proto : Option ObjectId} (left : Changes deferred first) (right : Changes immediate second)
    (heap : first.engine.heap = deferred.engine.heap.alloc kind proto)
    (mirrored : second.engine.heap = immediate.engine.heap.alloc kind proto)
    (setting : SameSetting first second) (client : second.client = first.client)
    (total : first.engine.finalized = deferred.engine.finalized)
    (also : second.engine.finalized = immediate.engine.finalized) :
    Mirrors origin waste first second where
  setting := setting
  client := client
  total := by rw [total, also, mirrors.total]
  known := fun id listed => Nat.lt_of_lt_of_le (mirrors.known id listed) left.persists.size
  gone := by
    intro id member
    have apart : id ≠ immediate.engine.heap.nextId := by
      intro same
      have inside := mirrors.known id (.inl member)
      rw [same, mirrors.next] at inside
      exact Nat.lt_irrefl _ inside
    rw [mirrored, Heap.get_alloc_other _ _ _ apart]
    exact mirrors.gone id member
  kept := by
    intro id member
    have apart : id ≠ deferred.engine.heap.nextId := by
      intro same
      have inside := mirrors.known id (.inl member)
      rw [same] at inside
      exact Nat.lt_irrefl _ inside
    rw [heap, Heap.get_alloc_other _ _ _ apart]
    exact mirrors.kept id member
  bound := by
    intro id member bridge
    rw [left.signal]
    exact mirrors.bound id member bridge
  objects := by
    intro id outside
    by_cases new : id = deferred.engine.heap.nextId
    · have unheld : origin.graph.heldBy waste id = 0 := by
        by_contra held
        have inside := mirrors.known id (.inr held)
        rw [new] at inside
        exact Nat.lt_irrefl _ inside
      rw [heap, mirrored, unheld, new, Heap.get_alloc_same, ← mirrors.next, Heap.get_alloc_same]
      rfl
    · have apart : id ≠ immediate.engine.heap.nextId := by
        rw [mirrors.next]
        exact new
      rw [heap, mirrored, Heap.get_alloc_other _ _ _ new, Heap.get_alloc_other _ _ _ apart]
      exact mirrors.objects id outside
  signals := by
    intro bridge id outside
    rw [left.signal, right.signal]
    exact mirrors.signals bridge id outside

theorem Mirrors.allocate (mirrors : Mirrors origin waste deferred immediate) {kind : ObjectKind}
    {proto : Option ObjectId} (unbound : kind.Unbound deferred.engine.registry)
    (known : ∀ id ∈ proto, id.index < deferred.size) :
    Mirrors origin waste (deferred.allocate kind proto) (immediate.allocate kind proto) := by
  have left : Changes deferred (deferred.allocate kind proto) := .single (.allocate unbound known)
  have right : Changes immediate (immediate.allocate kind proto) := by
    refine .single (.allocate ?_ ?_)
    · rw [mirrors.registry]
      exact unbound
    · rw [mirrors.size]
      exact known
  apply mirrors.extend left right rfl rfl
  · refine ⟨mirrors.setting.registry, ?_, mirrors.setting.size, mirrors.setting.bridges,
      mirrors.setting.client⟩
    have same := mirrors.setting.places
    simp [World.allocate, Heap.alloc, same]
  · exact mirrors.client
  · rfl
  · rfl

theorem Mirrors.allocate_instance (mirrors : Mirrors origin waste deferred immediate)
    {proto : Value} {classId : ClassId} (outside : proto.Outside waste)
    (defined : deferred.isDefined classId = true) :
    Mirrors origin waste (deferred.allocateInstance proto classId)
      (immediate.allocateInstance proto classId) := by
  unfold allocateInstance
  rw [mirrors.is_alive outside]
  split
  · rename_i alive
    obtain ⟨id, object, rfl, found⟩ := object_of_alive alive
    have duplicated := (changes_duplicate deferred (.object id)).persists
    have unbound : (ObjectKind.native classId none).Unbound
        (deferred.duplicate (.object id)).engine.registry :=
      ⟨rfl, is_defined_of_persists duplicated defined⟩
    apply (mirrors.duplicate outside).allocate unbound
    intro other member
    cases member
    exact Nat.lt_of_lt_of_le (within_of_get found) duplicated.size
  · exact mirrors.allocate ⟨rfl, defined⟩ (by simp)

/-- A class is installed in both worlds under the same number, with a bridge of the same
number. -/
theorem Mirrors.install (mirrors : Mirrors origin waste deferred immediate) {classId : ClassId}
    (config : Config) (vacant : deferred.engine.registry.checkOpen classId = .ok ()) :
    Mirrors origin waste
      ((deferred.addBridge classId config true).defineClass classId deferred.nextBridge.definition)
      ((immediate.addBridge classId config true).defineClass classId
        immediate.nextBridge.definition) := by
  have vacantMirrored : immediate.engine.registry.checkOpen classId = .ok () := by
    rw [mirrors.registry]
    exact vacant
  have bridge : immediate.nextBridge = deferred.nextBridge :=
    congrArg BridgeId.mk mirrors.setting.size
  apply @Mirrors.extend origin deferred immediate _ _ waste mirrors .plain none
    (.single (.install config vacant)) (.single (.install config vacantMirrored)) rfl rfl
  · refine ⟨?_, ?_, ?_, ?_, mirrors.setting.client⟩
    · change immediate.engine.registry.define classId immediate.nextBridge.definition
          immediate.engine.heap.nextId =
        deferred.engine.registry.define classId deferred.nextBridge.definition
          deferred.engine.heap.nextId
      rw [mirrors.registry, bridge, mirrors.next]
    · have same := mirrors.setting.places
      simp [defineClass, addBridge, World.allocate, World.emit, Heap.alloc, same]
    · have same := mirrors.setting.size
      simp [defineClass, addBridge, World.allocate, World.emit, same]
    · intro other
      change ((immediate.addBridge classId config true).bridge? other).map _ =
        ((deferred.addBridge classId config true).bridge? other).map _
      rw [bridge_add, bridge_add, bridge]
      split
      · rfl
      · exact mirrors.setting.bridges other
  · exact mirrors.client
  · rfl
  · rfl

/-- The state of a handle is written in both worlds, after some small changes. -/
theorem Mirrors.write (mirrors : Mirrors origin waste first second) (paired : deferred.Paired)
    (also : immediate.Paired) {id : BridgeId} {handle : Value} (outside : handle.Outside waste)
    {key mirrored : Key} {old : SignalState}
    (bound : deferred.boundState id handle = .ok (key, old))
    (boundMirrored : immediate.boundState id handle = .ok (mirrored, old))
    (left : Changes deferred first) (right : Changes immediate second) (new : SignalState) :
    Mirrors origin waste (first.modifyStates id fun states => states.set key new)
      (second.modifyStates id fun states => states.set mirrored new) := by
  apply mirrors.restate (alike_modify_states first id _) (alike_modify_states second id _)
    fun bridge value held => if bridge = id ∧ .object value = handle then some new else held
  · intro value member bridge held
    exact if_neg (outside.apart member bridge id)
  · intro bridge value
    rw [signal_write paired bound left, left.signal]
  · intro bridge value
    rw [signal_write also boundMirrored right, right.signal]

theorem Mirrors.finalize_signal (mirrors : Mirrors origin waste deferred immediate)
    (paired : deferred.Paired) (also : immediate.Paired) (id : BridgeId) {handle : Value}
    (outside : handle.Outside waste) :
    Mirrors origin waste (deferred.finalizeSignal id handle).1
        (immediate.finalizeSignal id handle).1 ∧
      (immediate.finalizeSignal id handle).2 = (deferred.finalizeSignal id handle).2 := by
  constructor
  · apply mirrors.restate (alike_finalize_signal deferred id handle)
      (alike_finalize_signal immediate id handle)
      fun bridge value held => if bridge = id ∧ .object value = handle then none else held
    · intro value member bridge held
      exact if_neg (outside.apart member bridge id)
    · intro bridge value
      rw [signal_finalize_signal paired]
    · intro bridge value
      rw [signal_finalize_signal also]
  · rcases mirrors.bound_state outside id with
      ⟨unbound, unboundMirrored⟩ | ⟨key, mirrored, state, bound, boundMirrored⟩
    · rcases paired.finalize_cases id handle with ⟨same, -⟩ | ⟨other, held, found, -⟩
      · rcases also.finalize_cases id handle with ⟨sameMirrored, -⟩ | ⟨other, held, found, -⟩
        · rw [same, sameMirrored]
        · rw [unboundMirrored] at found
          cases found
      · rw [unbound] at found
        cases found
    · rcases paired.finalize_cases id handle with ⟨-, unbound⟩ | ⟨other, held, found, same⟩
      · exact absurd bound (unbound key state)
      · cases bound.symm.trans found
        rcases also.finalize_cases id handle with ⟨-, unbound⟩ |
          ⟨place, last, reached, sameMirrored⟩
        · exact absurd boundMirrored (unbound mirrored state)
        · cases boundMirrored.symm.trans reached
          rw [same, sameMirrored]

theorem Mirrors.bind (mirrors : Mirrors origin waste deferred immediate) (paired : deferred.Paired)
    (also : immediate.Paired) {id : BridgeId} {handle : Value} (outside : handle.Outside waste)
    (awaits : deferred.Awaits id handle) (awaitsMirrored : immediate.Awaits id handle)
    {route : Route} {link : Option StrongRef}
    (room : (deferred.bindSignal id route handle link).1.Roomy)
    (roomMirrored : (immediate.bindSignal id route handle link).1.Roomy) :
    Mirrors origin waste (deferred.bindSignal id route handle link).1
      (immediate.bindSignal id route handle link).1 := by
  apply mirrors.restate (alike_bind_signal deferred id route handle link)
    (alike_bind_signal immediate id route handle link)
    fun bridge value held =>
      if bridge = id ∧ .object value = handle then some ⟨none, link⟩ else held
  · intro value member bridge held
    exact if_neg (outside.apart member bridge id)
  · intro bridge value
    rw [signal_bind_signal paired awaits (room id)]
  · intro bridge value
    rw [signal_bind_signal also awaitsMirrored (roomMirrored id)]

/-- In a world of Signals a finalizer does the same in both worlds. -/
theorem Mirrors.run_finalizer (mirrors : Mirrors origin waste deferred immediate)
    (tidy : deferred.Tidy) (paired : deferred.Paired) (also : immediate.Paired) {id : ObjectId}
    (outside : id ∉ waste) :
    Mirrors origin waste (deferred.runFinalizer id).1 (immediate.runFinalizer id).1 ∧
      (immediate.runFinalizer id).2 = (deferred.runFinalizer id).2 := by
  have apart := Value.outside_object outside
  unfold runFinalizer
  rw [mirrors.class_of apart, mirrors.registry]
  cases found : (deferred.classOf? (.object id)).bind deferred.engine.registry.record? with
  | none => exact ⟨mirrors, rfl⟩
  | some record =>
      obtain ⟨classId, -, held⟩ := Option.bind_eq_some_iff.1 found
      obtain ⟨bridge, made⟩ := tidy.classes classId record held
      rw [made]
      exact mirrors.finalize_signal paired also bridge apart

end Writing

end World

end ScriptSignal
