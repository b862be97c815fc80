import Mathlib.Logic.Relation
import ScriptSignal.Proofs.Counting
import ScriptSignal.Proofs.Handles

/-!
# What operations do to a world

Most operations do no more than a few small changes one after the other. None of these
frees an object, writes a slot or touches a table of states. What every small change
leaves alone is therefore left alone by all these operations, and needs to be shown only
once for each change.
-/

namespace ScriptSignal

set_option autoImplicit false

theorem NameMap.mem_values_of_find {α : Type} {map : NameMap α} {name : String} {entry : α}
    (found : map.find? name = some entry) : entry ∈ map.values := by
  obtain ⟨pairs⟩ := map
  unfold find? at found
  unfold values
  induction pairs with
  | nil => cases found
  | cons pair rest induction =>
      by_cases same : pair.1 = name
      · simp only [findIn, same, if_true, Option.some.injEq] at found
        simp [found]
      · simp only [findIn, same, if_false] at found
        exact List.mem_cons_of_mem _ (induction found)

theorem NameMap.mem_of_find_of_list {α : Type} {pairs : List (String × α)} {name : String}
    {entry : α} (found : (ofList pairs).find? name = some entry) :
    ∃ pair ∈ pairs, pair.2 = entry := by
  have general : ∀ (rest : List (String × α)) (map : NameMap α),
      (rest.foldl (fun map pair => map.insert pair.1 pair.2) map).find? name = some entry →
        map.find? name = some entry ∨ ∃ pair ∈ rest, pair.2 = entry := by
    intro rest
    induction rest with
    | nil => exact fun map held => .inl held
    | cons pair rest induction =>
        intro map held
        rcases induction (map.insert pair.1 pair.2) held with early | ⟨later, member, same⟩
        · by_cases here : name = pair.1
          · subst here
            rw [find_insert_same] at early
            exact .inr ⟨pair, by simp, Option.some.inj early⟩
          · rw [find_insert_other _ here] at early
            exact .inl early
        · exact .inr ⟨later, by simp [member], same⟩
  rcases general pairs empty found with nothing | listed
  · simp at nothing
  · exact listed

namespace Registry

theorem record_reserve (registry : Registry) (classId : ClassId) :
    registry.reserve.record? classId = registry.record? classId := by
  unfold record? reserve
  rw [Array.getElem?_push]
  by_cases last : classId.number.toNat = registry.classes.size
  · simp [last]
  · simp [last]

theorem check_open_eq_ok {registry : Registry} {classId : ClassId} :
    registry.checkOpen classId = .ok () ↔
      registry.classes[classId.number.toNat]? = some none := by
  unfold checkOpen
  split <;> simp_all

theorem record_of_open {registry : Registry} {classId : ClassId}
    (vacant : registry.checkOpen classId = .ok ()) : registry.record? classId = none := by
  simp [record?, check_open_eq_ok.1 vacant]

def made (definition : ClassDefinition) (proto : ObjectId) : ClassRecord where
  name := definition.name
  constructor := definition.constructor
  methods := .ofList definition.methods
  finalizer := definition.finalizer
  proto

theorem record_define {registry : Registry} {classId : ClassId}
    (vacant : registry.checkOpen classId = .ok ()) (definition : ClassDefinition)
    (proto : ObjectId) (other : ClassId) :
    (registry.define classId definition proto).record? other =
      if other = classId then some (made definition proto) else registry.record? other := by
  have found := check_open_eq_ok.1 vacant
  have bound := (Array.getElem?_eq_some_iff.1 found).1
  unfold record? define
  by_cases same : other = classId
  · subst same
    simp [bound, made]
  · have apart : classId.number.toNat ≠ other.number.toNat := by
      intro equal
      apply same
      cases other
      cases classId
      simp_all [UInt32.toNat_inj]
    simp [same, apart]

end Registry

namespace ObjectKind

def class? : ObjectKind → Option ClassId
  | native classId _ => some classId
  | _ => none

def key? (classId : ClassId) : ObjectKind → Option Key
  | native ofClass slot => if ofClass = classId then slot.map Key.ofBits else none
  | _ => none

end ObjectKind

namespace World

def kind? (world : World) (value : Value) : Option ObjectKind :=
  (world.object? value).map Object.kind

theorem kind_object (world : World) (id : ObjectId) :
    world.kind? (.object id) = (world.engine.heap.get? id).map Object.kind := rfl

theorem slot_key_eq (world : World) (value : Value) (classId : ClassId) :
    world.slotKey? value classId = (world.kind? value).bind (ObjectKind.key? classId) := by
  unfold slotKey? kind?
  cases (world.object? value).map Object.kind with
  | none => rfl
  | some kind => cases kind <;> rfl

theorem class_of_eq (world : World) (value : Value) :
    world.classOf? value = (world.kind? value).bind ObjectKind.class? := by
  unfold classOf? kind?
  cases (world.object? value).map Object.kind with
  | none => rfl
  | some kind => cases kind <;> rfl

theorem slot_key_of_kind {world other : World} {value : Value} {classId : ClassId}
    (same : other.kind? value = world.kind? value) :
    other.slotKey? value classId = world.slotKey? value classId := by
  rw [slot_key_eq, slot_key_eq, same]

theorem class_of_kind {world other : World} {value : Value}
    (same : other.kind? value = world.kind? value) :
    other.classOf? value = world.classOf? value := by
  rw [class_of_eq, class_of_eq, same]

theorem size_put (world : World) (id : ObjectId) (object : Object) :
    (world.putObject id object).size = world.size := by
  simp [size, putObject, Heap.put]

theorem size_allocate (world : World) (kind : ObjectKind) (proto : Option ObjectId) :
    (world.allocate kind proto).size = world.size + 1 := by
  simp [size, allocate, Heap.alloc]

theorem kind_put {world : World} {id : ObjectId} {object changed : Object}
    (found : world.engine.heap.get? id = some object) (same : changed.kind = object.kind)
    (value : Value) : (world.putObject id changed).kind? value = world.kind? value := by
  cases value with
  | object other =>
      rw [kind_object, kind_object]
      by_cases here : other = id
      · subst here
        rw [show (world.putObject other changed).engine.heap.get? other = some changed from
          Heap.get_put_same found changed, found]
        simp [same]
      · rw [show (world.putObject id changed).engine.heap.get? other =
            world.engine.heap.get? other from Heap.get_put_other _ here changed]
  | _ => rfl

theorem kind_next (world : World) : world.kind? world.nextValue = none := by
  have beyond : world.engine.heap.get? world.engine.heap.nextId = none :=
    Heap.get_eq_none_of_size_le (Nat.le_refl _)
  rw [nextValue, kind_object, beyond]
  rfl

theorem kind_allocate (world : World) (kind : ObjectKind) (proto : Option ObjectId)
    (value : Value) :
    (world.allocate kind proto).kind? value =
      if value = world.nextValue then some kind else world.kind? value := by
  by_cases new : value = world.nextValue
  · subst new
    simp only [if_true]
    change ((world.engine.heap.alloc kind proto).get? world.engine.heap.nextId).map _ = _
    simp
  · rw [if_neg new]
    cases value with
    | object id =>
        have apart : id ≠ world.engine.heap.nextId := by
          rintro rfl
          exact new rfl
        change ((world.engine.heap.alloc kind proto).get? id).map _ = _
        rw [Heap.get_alloc_other _ _ _ apart]
        rfl
    | _ => rfl

theorem kind_define (world : World) (classId : ClassId) (definition : ClassDefinition)
    (value : Value) :
    (world.defineClass classId definition).kind? value =
      if value = world.nextValue then some .plain else world.kind? value :=
  kind_allocate
    { world with
      engine.registry := world.engine.registry.define classId definition world.engine.heap.nextId }
    .plain none value

theorem bridge_modify (world : World) (id : BridgeId) (change : Bridge → Bridge)
    (other : BridgeId) :
    (world.modifyBridge id change).bridge? other =
      if other = id then (world.bridge? id).map change else world.bridge? other := by
  obtain ⟨index⟩ := id
  obtain ⟨place⟩ := other
  simp only [bridge?, modifyBridge, Array.getElem?_modify]
  by_cases same : place = index
  · simp [same]
  · simp [same, Ne.symm same]

theorem modify_missing_bridge {world : World} {id : BridgeId} (missing : world.bridge? id = none)
    (change : Bridge → Bridge) : world.modifyBridge id change = world := by
  have listed : world.bridges.toList[id.index]? = none := by
    rw [Array.getElem?_toList]
    exact missing
  have same : world.bridges.modify id.index change = world.bridges := by
    apply Array.toList_inj.1
    rw [Array.toList_modify, List.modify_eq_set_getElem?, listed]
    rfl
  unfold modifyBridge
  rw [same]

theorem bridge_add (world : World) (classId : ClassId) (config : Config) (installed : Bool)
    (other : BridgeId) :
    (world.addBridge classId config installed).bridge? other =
      if other = world.nextBridge then some ⟨classId, config, .empty, installed, 0⟩
      else world.bridge? other := by
  obtain ⟨place⟩ := other
  simp only [bridge?, addBridge, Array.getElem?_push, nextBridge, BridgeId.mk.injEq]

theorem bridge_next (world : World) : world.bridge? world.nextBridge = none := by
  simp [bridge?, nextBridge]

end World

/-- An object without a key in its slot, and of no class that is not defined. -/
def ObjectKind.Unbound (registry : Registry) : ObjectKind → Prop
  | .native classId slot => slot = none ∧ (registry.record? classId).isSome
  | _ => True

namespace World

inductive Change : World → World → Prop
  | emit (world : World) (event : Event) : Change world (world.emit event)
  | recount {world : World} {id : ObjectId} {object : Object}
      (found : world.engine.heap.get? id = some object) (count : Nat) :
      Change world (world.putObject id { object with refCount := count })
  | write {world : World} {id : ObjectId} {object : Object}
      (found : world.engine.heap.get? id = some object) (key : String) {value : Value}
      (known : value.Within world.size) :
      Change world
        (world.putObject id { object with properties := object.properties.insert key value })
  | allocate {world : World} {kind : ObjectKind} {proto : Option ObjectId}
      (unbound : kind.Unbound world.engine.registry) (known : ∀ id ∈ proto, id.index < world.size) :
      Change world (world.allocate kind proto)
  | queue {world : World} {backlog : Backlog ObjectId}
      (known : ∀ id ∈ backlog.items, id.index < world.size) :
      Change world { world with engine.backlog := backlog }
  | reserve (world : World) : Change world world.reserveClass
  | define {world : World} {classId : ClassId} {definition : ClassDefinition}
      (vacant : world.engine.registry.checkOpen classId = .ok ())
      (known : AllWithin world.size definition.literals) :
      Change world (world.defineClass classId definition)
  | create (world : World) (classId : ClassId) (config : Config) :
      Change world (world.addBridge classId config false)
  | install {world : World} {classId : ClassId} (config : Config)
      (vacant : world.engine.registry.checkOpen classId = .ok ()) :
      Change world
        ((world.addBridge classId config true).defineClass classId world.nextBridge.definition)
  | activity (world : World) (id : BridgeId) (active : Nat → Nat) :
      Change world
        (world.modifyBridge id fun bridge => { bridge with active := active bridge.active })
  | client {world : World} {client : Client}
      (known : ∀ name value, client.registers.find? name = some value →
        value.Within world.size) :
      Change world { world with client }

abbrev Changes : World → World → Prop := Relation.ReflTransGen Change

/-- What was there is still there, apart from objects and states. -/
structure Persists (before after : World) : Prop where
  running : after.engine.running = before.engine.running
  mode : after.engine.mode = before.engine.mode
  size : before.size ≤ after.size
  records : ∀ classId record, before.engine.registry.record? classId = some record →
    after.engine.registry.record? classId = some record
  bridges : ∀ id bridge, before.bridge? id = some bridge →
    ∃ later, after.bridge? id = some later ∧ later.classId = bridge.classId ∧
      later.config = bridge.config ∧ later.installed = bridge.installed ∧
      bridge.states.capacity ≤ later.states.capacity

theorem Persists.refl (world : World) : Persists world world where
  running := rfl
  mode := rfl
  size := Nat.le_refl _
  records := fun _ _ found => found
  bridges := fun _ bridge found => ⟨bridge, found, rfl, rfl, rfl, Nat.le_refl _⟩

theorem Persists.trans {before middle after : World} (first : Persists before middle)
    (last : Persists middle after) : Persists before after where
  running := last.running.trans first.running
  mode := last.mode.trans first.mode
  size := Nat.le_trans first.size last.size
  records := fun classId record found =>
    last.records classId record (first.records classId record found)
  bridges := by
    intro id bridge found
    obtain ⟨between, foundBetween, classId, config, installed, capacity⟩ :=
      first.bridges id bridge found
    obtain ⟨later, foundLater, laterClass, laterConfig, laterInstalled, laterCapacity⟩ :=
      last.bridges id between foundBetween
    exact ⟨later, foundLater, laterClass.trans classId, laterConfig.trans config,
      laterInstalled.trans installed, Nat.le_trans capacity laterCapacity⟩

theorem Persists.of_bridges {before after : World}
    (engine : after.engine = before.engine)
    (bridges : ∀ id bridge, before.bridge? id = some bridge →
      ∃ later, after.bridge? id = some later ∧ later.classId = bridge.classId ∧
        later.config = bridge.config ∧ later.installed = bridge.installed ∧
        bridge.states.capacity ≤ later.states.capacity) : Persists before after where
  running := by rw [engine]
  mode := by rw [engine]
  size := by simp [World.size, engine]
  records := by simp [engine]
  bridges := bridges

theorem persists_add_bridge (world : World) (classId : ClassId) (config : Config)
    (installed : Bool) : Persists world (world.addBridge classId config installed) := by
  refine Persists.of_bridges rfl ?_
  intro id bridge found
  have old : id ≠ world.nextBridge := by
    rintro rfl
    rw [bridge_next] at found
    cases found
  exact ⟨bridge, by rw [bridge_add, if_neg old, found], rfl, rfl, rfl, Nat.le_refl _⟩

theorem persists_define {world : World} {classId : ClassId}
    (vacant : world.engine.registry.checkOpen classId = .ok ()) (definition : ClassDefinition) :
    Persists world (world.defineClass classId definition) where
  running := rfl
  mode := rfl
  size := by
    have grown := size_allocate { world with
      engine.registry := world.engine.registry.define classId definition world.engine.heap.nextId }
      .plain none
    exact Nat.le_trans (Nat.le_succ world.size) (Nat.le_of_eq grown.symm)
  records := by
    intro other record found
    change (world.engine.registry.define classId definition world.engine.heap.nextId).record? other
      = some record
    have apart : other ≠ classId := by
      rintro rfl
      rw [Registry.record_of_open vacant] at found
      cases found
    rw [Registry.record_define vacant, if_neg apart, found]
  bridges := fun _ bridge found => ⟨bridge, found, rfl, rfl, rfl, Nat.le_refl _⟩

theorem persists_modify (world : World) (id : BridgeId) {change : Bridge → Bridge}
    (keeps : ∀ bridge, world.bridge? id = some bridge →
      (change bridge).classId = bridge.classId ∧ (change bridge).config = bridge.config ∧
        (change bridge).installed = bridge.installed ∧
        bridge.states.capacity ≤ (change bridge).states.capacity) :
    Persists world (world.modifyBridge id change) := by
  refine Persists.of_bridges rfl ?_
  intro other bridge found
  rw [bridge_modify]
  by_cases same : other = id
  · subst same
    exact ⟨change bridge, by simp [found], keeps bridge found⟩
  · exact ⟨bridge, by simp [same, found], rfl, rfl, rfl, Nat.le_refl _⟩

theorem Change.persists {before after : World} (change : Change before after) :
    Persists before after := by
  have same := Persists.refl before
  cases change with
  | emit event => exact ⟨rfl, rfl, same.size, same.records, same.bridges⟩
  | recount found count =>
      exact ⟨rfl, rfl, Nat.le_of_eq (size_put _ _ _).symm, same.records, same.bridges⟩
  | write found key known =>
      exact ⟨rfl, rfl, Nat.le_of_eq (size_put _ _ _).symm, same.records, same.bridges⟩
  | allocate unbound known =>
      refine ⟨rfl, rfl, ?_, same.records, same.bridges⟩
      rw [size_allocate]
      exact Nat.le_succ _
  | queue known => exact ⟨rfl, rfl, same.size, same.records, same.bridges⟩
  | reserve =>
      refine ⟨rfl, rfl, same.size, ?_, same.bridges⟩
      intro classId record found
      exact (Registry.record_reserve _ classId).trans found
  | define vacant known => exact persists_define vacant _
  | create classId config => exact persists_add_bridge _ classId config false
  | install config vacant =>
      refine (persists_add_bridge _ _ config true).trans (persists_define ?_ _)
      exact vacant
  | activity id active =>
      exact persists_modify _ id fun _ _ => ⟨rfl, rfl, rfl, Nat.le_refl _⟩
  | client known => exact ⟨rfl, rfl, same.size, same.records, same.bridges⟩

theorem Changes.persists {before after : World} (changes : Changes before after) :
    Persists before after := by
  induction changes with
  | refl => exact Persists.refl _
  | tail _ change induction => exact induction.trans change.persists

private theorem kind_of_define {before after : World} {value : Value}
    (defined : after.kind? value =
      if value = before.nextValue then some .plain else before.kind? value) :
    after.kind? value = before.kind? value ∨
      value = before.nextValue ∧
        ∃ kind, after.kind? value = some kind ∧ kind.Unbound after.engine.registry := by
  by_cases new : value = before.nextValue
  · exact .inr ⟨new, .plain, by simpa [new] using defined, trivial⟩
  · exact .inl (by simpa [new] using defined)

theorem Change.kinds {before after : World} (change : Change before after) (value : Value) :
    after.kind? value = before.kind? value ∨
      value = before.nextValue ∧
        ∃ kind, after.kind? value = some kind ∧ kind.Unbound after.engine.registry := by
  cases change with
  | emit event => exact .inl rfl
  | recount found count => exact .inl (kind_put found (by rfl) value)
  | write found key known => exact .inl (kind_put found (by rfl) value)
  | @allocate kind proto unbound known =>
      rw [kind_allocate]
      by_cases new : value = before.nextValue
      · exact .inr ⟨new, kind, if_pos new, unbound⟩
      · exact .inl (if_neg new)
  | queue known => exact .inl rfl
  | reserve => exact .inl rfl
  | define vacant known => exact kind_of_define (kind_define before _ _ value)
  | create classId config => exact .inl rfl
  | install config vacant =>
      exact kind_of_define (kind_define (before.addBridge _ config true) _ _ value)
  | activity id active => exact .inl rfl
  | client known => exact .inl rfl

theorem Change.slot_key {before after : World} (change : Change before after) (value : Value)
    (classId : ClassId) : after.slotKey? value classId = before.slotKey? value classId := by
  rcases change.kinds value with same | ⟨rfl, kind, new, unbound⟩
  · exact slot_key_of_kind same
  · have absent : before.slotKey? before.nextValue classId = none := by
      rw [slot_key_eq, kind_next]
      rfl
    rw [absent, slot_key_eq, new]
    cases kind with
    | native ofClass slot =>
        have empty : slot = none := unbound.1
        subst empty
        simp [ObjectKind.key?]
    | _ => rfl

theorem Change.class_of {before after : World} (change : Change before after) {value : Value}
    {classId : ClassId} (found : after.classOf? value = some classId) :
    before.classOf? value = some classId ∨ after.isDefined classId = true := by
  rcases change.kinds value with same | ⟨-, kind, new, unbound⟩
  · exact .inl ((class_of_kind same).symm.trans found)
  · refine .inr ?_
    rw [class_of_eq, new] at found
    cases kind with
    | native ofClass slot =>
        cases found
        exact unbound.2
    | _ => cases found

/-- The tables that are there stay as they are. A bridge that is new has an empty table, and
if it is installed, it has just been made the finalizer of a new class. -/
theorem Change.bridges {before after : World} (change : Change before after) (id : BridgeId) :
    (after.bridge? id).map Bridge.states = (before.bridge? id).map Bridge.states ∨
      before.bridge? id = none ∧ ∃ bridge, after.bridge? id = some bridge ∧
        bridge.states = .empty ∧ (bridge.installed = true →
          before.engine.registry.record? bridge.classId = none ∧
            ∃ record, after.engine.registry.record? bridge.classId = some record ∧
              record = Registry.made id.definition record.proto) := by
  cases change with
  | create classId config =>
      rw [bridge_add]
      by_cases new : id = before.nextBridge
      · subst new
        exact .inr ⟨bridge_next before, _, if_pos rfl, rfl, fun installed => by cases installed⟩
      · simp [new]
  | @install classId config vacant =>
      have added : ((before.addBridge classId config true).defineClass classId
          before.nextBridge.definition).bridge? id =
          if id = before.nextBridge then some ⟨classId, config, .empty, true, 0⟩
          else before.bridge? id := bridge_add before classId config true id
      rw [added]
      by_cases new : id = before.nextBridge
      · subst new
        refine .inr ⟨bridge_next before, _, if_pos rfl, rfl, fun _ => ⟨?_, ?_⟩⟩
        · exact Registry.record_of_open vacant
        · refine ⟨Registry.made before.nextBridge.definition before.engine.heap.nextId, ?_, rfl⟩
          change (before.engine.registry.define classId before.nextBridge.definition
            before.engine.heap.nextId).record? classId = _
          rw [Registry.record_define vacant, if_pos rfl]
      · simp [new]
  | activity other active =>
      rw [bridge_modify]
      by_cases same : id = other
      · subst same
        left
        cases before.bridge? id <;> simp
      · simp [same]
  | _ => exact .inl rfl

theorem grounded_of_same {before after : World} (grounded : before.Grounded)
    (heap : after.engine.heap = before.engine.heap)
    (registry : after.engine.registry = before.engine.registry)
    (client : after.client = before.client)
    (backlog : after.engine.backlog = before.engine.backlog) : after.Grounded := by
  have size : after.size = before.size := by simp [World.size, heap]
  refine ⟨?_, ?_, ?_, ?_⟩
  · rw [heap, size]
    exact grounded.objects
  · rw [registry, size]
    exact grounded.classes
  · rw [client, size]
    exact grounded.registers
  · rw [backlog, size]
    exact grounded.waiting

theorem grounded_put {world : World} (grounded : world.Grounded) {id : ObjectId}
    {object changed : Object} (found : world.engine.heap.get? id = some object)
    (owned : AllWithin world.size changed.owned) : (world.putObject id changed).Grounded where
  objects := by
    intro other held foundOther
    rw [size_put]
    by_cases same : other = id
    · subst same
      have written : (world.putObject other changed).engine.heap.get? other = some changed :=
        Heap.get_put_same found changed
      rw [written] at foundOther
      cases foundOther
      exact owned
    · have kept : (world.putObject id changed).engine.heap.get? other =
          world.engine.heap.get? other := Heap.get_put_other _ same changed
      rw [kept] at foundOther
      exact grounded.objects other held foundOther
  classes := by
    rw [size_put]
    exact grounded.classes
  registers := by
    rw [size_put]
    exact grounded.registers
  waiting := by
    rw [size_put]
    exact grounded.waiting

theorem grounded_allocate {world : World} (grounded : world.Grounded) (kind : ObjectKind)
    {proto : Option ObjectId} (known : ∀ id ∈ proto, id.index < world.size) :
    (world.allocate kind proto).Grounded := by
  have grows : world.size ≤ (world.allocate kind proto).size := by
    rw [size_allocate]
    exact Nat.le_succ _
  refine ⟨?_, ?_, ?_, ?_⟩
  · intro id object found
    by_cases new : id = world.engine.heap.nextId
    · subst new
      have made : (world.allocate kind proto).engine.heap.get? world.engine.heap.nextId =
          some ⟨1, kind, proto, .empty⟩ := Heap.get_alloc_same _ kind proto
      rw [made] at found
      cases found
      intro value member
      simp only [Object.owned, NameMap.values, NameMap.empty, List.map_nil, List.nil_append,
        List.mem_map, Option.mem_toList] at member
      obtain ⟨id, isProto, rfl⟩ := member
      exact Nat.lt_of_lt_of_le (known id isProto) grows
    · have kept : (world.allocate kind proto).engine.heap.get? id =
          world.engine.heap.get? id := Heap.get_alloc_other _ kind proto new
      rw [kept] at found
      exact (grounded.objects id object found).mono grows
  · intro classId record found
    exact (grounded.classes classId record found).mono grows
  · intro name value found
    exact (grounded.registers name value found).mono grows
  · intro id member
    exact Nat.lt_of_lt_of_le (grounded.waiting id member) grows

theorem grounded_define {world : World} (grounded : world.Grounded) {classId : ClassId}
    {definition : ClassDefinition} (vacant : world.engine.registry.checkOpen classId = .ok ())
    (known : AllWithin world.size definition.literals) :
    (world.defineClass classId definition).Grounded := by
  have allocated := grounded_allocate grounded .plain
      (by simp : ∀ id ∈ (none : Option ObjectId), id.index < world.size)
  have larger : (world.defineClass classId definition).size = world.size + 1 :=
    size_allocate { world with
      engine.registry := world.engine.registry.define classId definition world.engine.heap.nextId }
      .plain none
  refine ⟨allocated.objects, ?_, allocated.registers, allocated.waiting⟩
  intro other record found
  have read : (world.defineClass classId definition).engine.registry.record? other =
      if other = classId then some (Registry.made definition world.engine.heap.nextId)
      else world.engine.registry.record? other := Registry.record_define vacant _ _ other
  rw [read] at found
  rw [larger]
  by_cases same : other = classId
  · rw [if_pos same] at found
    cases found
    have parts := known.mono (Nat.le_succ world.size)
    simp only [ClassDefinition.literals, all_within_append] at parts
    refine ⟨Nat.lt_succ_self _, parts.1.1, ?_, parts.2⟩
    intro name function listed value member
    obtain ⟨pair, inList, rfl⟩ := NameMap.mem_of_find_of_list listed
    exact parts.1.2 value (List.mem_flatMap.2 ⟨pair, inList, member⟩)
  · rw [if_neg same] at found
    exact (grounded.classes other record found).mono (Nat.le_succ _)

theorem all_within_insert {size : Nat} {map : NameMap Value} (within : AllWithin size map.values)
    (key : String) {value : Value} (known : value.Within size) :
    AllWithin size (map.insert key value).values := by
  intro other member
  have count := NameMap.count_insert map key value (fun held => [held]) other
  have present : 0 < ((map.insert key value).values.flatMap fun held => [held]).count other :=
    List.count_pos_iff.2 (by simpa using member)
  by_cases new : other = value
  · rw [new]
    exact known
  · have old : 0 < (map.values.flatMap fun held => [held]).count other := by
      simp only [List.count_singleton, beq_iff_eq, Ne.symm new, if_false] at count
      omega
    exact within other (by simpa using List.count_pos_iff.1 old)

theorem Change.grounded {before after : World} (change : Change before after)
    (grounded : before.Grounded) : after.Grounded := by
  cases change with
  | emit event => exact grounded_of_same grounded rfl rfl rfl rfl
  | @recount id object found count =>
      exact grounded_put grounded found (grounded.objects id object found)
  | write found key known =>
      have owned := grounded.objects _ _ found
      unfold Object.owned at owned
      rw [all_within_append] at owned
      refine grounded_put grounded found ?_
      unfold Object.owned
      rw [all_within_append]
      exact ⟨all_within_insert owned.1 key known, owned.2⟩
  | allocate unbound known => exact grounded_allocate grounded _ known
  | queue known => exact ⟨grounded.objects, grounded.classes, grounded.registers, known⟩
  | reserve =>
      refine ⟨grounded.objects, ?_, grounded.registers, grounded.waiting⟩
      intro classId record found
      have same : before.reserveClass.engine.registry.record? classId =
          before.engine.registry.record? classId := Registry.record_reserve _ classId
      rw [same] at found
      exact grounded.classes classId record found
  | define vacant known => exact grounded_define grounded vacant known
  | create classId config => exact grounded_of_same grounded rfl rfl rfl rfl
  | @install classId config vacant =>
      have added : (before.addBridge classId config true).Grounded :=
        grounded_of_same grounded rfl rfl rfl rfl
      refine grounded_define added vacant ?_
      simp [AllWithin, ClassDefinition.literals, BridgeId.definition, NativeFunction.literals,
        Finalizer.literals]
  | activity id active => exact grounded_of_same grounded rfl rfl rfl rfl
  | client known => exact ⟨grounded.objects, grounded.classes, known, grounded.waiting⟩

theorem Changes.grounded {before after : World} (changes : Changes before after)
    (grounded : before.Grounded) : after.Grounded := by
  induction changes with
  | refl => exact grounded
  | tail _ change induction => exact change.grounded induction

theorem Changes.slot_key {before after : World} (changes : Changes before after) (value : Value)
    (classId : ClassId) : after.slotKey? value classId = before.slotKey? value classId := by
  induction changes with
  | refl => rfl
  | tail _ change induction => exact (change.slot_key value classId).trans induction

end World

end ScriptSignal
