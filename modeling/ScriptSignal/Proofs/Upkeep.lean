import ScriptSignal.Proofs.Accounts

/-!
# Worlds of Signals only

All classes are classes of Signals with a bridge of their own, and the engine runs. In such
a world no script runs while an operation is carried out, and no bridge is ever taken down.
What the operations of a client do to it leaves the backlog alone, and no object loses its
last reference at once: references are given back by tasks.
-/

namespace ScriptSignal

set_option autoImplicit false

namespace World

structure Tidy (world : World) : Prop where
  running : world.engine.running = true
  /-- Every class was installed with a bridge. -/
  classes : ∀ classId record, world.engine.registry.record? classId = some record →
    ∃ bridge, record = Registry.made (BridgeId.definition bridge) record.proto
  installed : ∀ id bridge, world.bridge? id = some bridge → bridge.installed = true
  /-- Every bridge was installed with a class. -/
  served : ∀ id bridge, world.bridge? id = some bridge →
    ∃ proto, world.engine.registry.record? bridge.classId = some (Registry.made id.definition proto)
  sound : ∀ id bridge, world.bridge? id = some bridge → bridge.states.Sound
  references : world.client.references.Distinct
  states : world.client.states.Distinct
  counted : world.engine.backlog.Counted

theorem tidy_start (setting : Setting) : (start setting).Tidy where
  running := rfl
  classes := by
    intro classId record found
    simp [start, Engine.start, Registry.empty, Registry.record?] at found
  installed := by
    intro id bridge found
    simp [start, bridge?] at found
  served := by
    intro id bridge found
    simp [start, bridge?] at found
  sound := by
    intro id bridge found
    simp [start, bridge?] at found
  references := NameMap.distinct_empty
  states := NameMap.distinct_empty
  counted := Backlog.counted_empty

def Spent (world : World) (id : ObjectId) : Prop :=
  ∃ object, world.engine.heap.get? id = some object ∧ object.refCount = 0

/-- A world stays tidy, and no object loses its last reference. -/
structure Upkeep (before after : World) : Prop where
  tidy : before.Tidy → after.Tidy
  backlog : after.engine.backlog = before.engine.backlog
  mode : after.engine.mode = before.engine.mode
  spent : ∀ id, after.Spent id → before.Spent id
  bridges : ∀ id bridge, before.bridge? id = some bridge →
    ∃ later, after.bridge? id = some later ∧ bridge.states.capacity ≤ later.states.capacity

theorem Upkeep.refl (world : World) : Upkeep world world :=
  ⟨id, rfl, rfl, fun _ spent => spent, fun _ bridge found => ⟨bridge, found, Nat.le_refl _⟩⟩

theorem Upkeep.trans {before middle after : World} (first : Upkeep before middle)
    (last : Upkeep middle after) : Upkeep before after where
  tidy := fun tidy => last.tidy (first.tidy tidy)
  backlog := last.backlog.trans first.backlog
  mode := last.mode.trans first.mode
  spent := fun id spent => first.spent id (last.spent id spent)
  bridges := by
    intro id bridge found
    obtain ⟨between, reached, grown⟩ := first.bridges id bridge found
    obtain ⟨later, held, more⟩ := last.bridges id between reached
    exact ⟨later, held, Nat.le_trans grown more⟩

section Primitives

variable (world : World)

theorem upkeep_emit (event : Event) : Upkeep world (world.emit event) where
  tidy := fun tidy =>
    ⟨tidy.running, tidy.classes, tidy.installed, tidy.served, tidy.sound, tidy.references,
      tidy.states, tidy.counted⟩
  backlog := rfl
  mode := rfl
  spent := fun _ spent => spent
  bridges := fun _ bridge found => ⟨bridge, found, Nat.le_refl _⟩

theorem upkeep_put {id : ObjectId} {object changed : Object}
    (found : world.engine.heap.get? id = some object)
    (counts : changed.refCount = 0 → object.refCount = 0) :
    Upkeep world (world.putObject id changed) where
  tidy := fun tidy =>
    ⟨tidy.running, tidy.classes, tidy.installed, tidy.served, tidy.sound, tidy.references,
      tidy.states, tidy.counted⟩
  backlog := rfl
  mode := rfl
  spent := by
    rintro other ⟨held, reached, none⟩
    by_cases same : other = id
    · subst same
      have written : (world.putObject other changed).engine.heap.get? other = some changed :=
        Heap.get_put_same found changed
      rw [written] at reached
      cases reached
      exact ⟨object, found, counts none⟩
    · have kept : (world.putObject id changed).engine.heap.get? other =
          world.engine.heap.get? other := Heap.get_put_other _ same changed
      rw [kept] at reached
      exact ⟨held, reached, none⟩
  bridges := fun _ bridge found => ⟨bridge, found, Nat.le_refl _⟩

theorem upkeep_allocate (kind : ObjectKind) (proto : Option ObjectId) :
    Upkeep world (world.allocate kind proto) where
  tidy := fun tidy =>
    ⟨tidy.running, tidy.classes, tidy.installed, tidy.served, tidy.sound, tidy.references,
      tidy.states, tidy.counted⟩
  backlog := rfl
  mode := rfl
  spent := by
    rintro id ⟨object, reached, none⟩
    by_cases new : id = world.engine.heap.nextId
    · subst new
      have made : (world.allocate kind proto).engine.heap.get? world.engine.heap.nextId =
          some ⟨1, kind, proto, .empty⟩ := Heap.get_alloc_same _ kind proto
      rw [made] at reached
      cases reached
      cases none
    · have kept : (world.allocate kind proto).engine.heap.get? id =
          world.engine.heap.get? id := Heap.get_alloc_other _ kind proto new
      rw [kept] at reached
      exact ⟨object, reached, none⟩
  bridges := fun _ bridge found => ⟨bridge, found, Nat.le_refl _⟩

theorem upkeep_duplicate (value : Value) : Upkeep world (world.duplicate value) := by
  unfold duplicate
  split
  · split
    · rename_i found
      apply upkeep_put world found
      intro none
      cases none
    · exact upkeep_emit world _
  · exact .refl world

theorem upkeep_acquire (value : Value) : Upkeep world (world.acquire value) :=
  (upkeep_duplicate world value).trans (upkeep_emit _ _)

theorem upkeep_allocate_instance (proto : Value) (classId : ClassId) :
    Upkeep world (world.allocateInstance proto classId) := by
  unfold allocateInstance
  split
  · exact (upkeep_duplicate world proto).trans (upkeep_allocate _ _ _)
  · exact upkeep_allocate world _ _

theorem upkeep_set_slot (value : Value) (classId : ClassId) (key : Option Key) :
    Upkeep world (world.setSlot value classId key) := by
  rcases set_slot_cases world value classId key with
    ⟨same, -⟩ | ⟨id, object, slot, -, found, -, same⟩
  · rw [same]
    exact .refl world
  · rw [same]
    apply upkeep_put world found
    exact fun none => none

theorem upkeep_bind_handle (id : BridgeId) (handle : Value) (key : Option Key) :
    Upkeep world (world.bindHandle id handle key) := by
  rcases bind_handle_cases world id handle key with same | ⟨bridge, -, same⟩
  · rw [same]
    exact .refl world
  · rw [same]
    exact upkeep_set_slot world handle bridge.classId key

theorem upkeep_modify_bridge (id : BridgeId) {change : Bridge → Bridge}
    (sameClass : ∀ bridge, (change bridge).classId = bridge.classId)
    (sameInstalled : ∀ bridge, (change bridge).installed = bridge.installed)
    (sound : ∀ bridge, bridge.states.Sound → (change bridge).states.Sound)
    (grows : ∀ bridge, bridge.states.capacity ≤ (change bridge).states.capacity) :
    Upkeep world (world.modifyBridge id change) where
  tidy := by
    intro tidy
    -- a bridge of the new world is one of the old, perhaps changed
    have cases : ∀ other later, (world.modifyBridge id change).bridge? other = some later →
        ∃ bridge, world.bridge? other = some bridge ∧ (later = bridge ∨ later = change bridge) := by
      intro other later found
      rw [bridge_modify] at found
      by_cases same : other = id
      · subst same
        rw [if_pos rfl] at found
        obtain ⟨bridge, held, rfl⟩ := Option.map_eq_some_iff.1 found
        exact ⟨bridge, held, .inr rfl⟩
      · rw [if_neg same] at found
        exact ⟨later, found, .inl rfl⟩
    refine ⟨tidy.running, tidy.classes, ?_, ?_, ?_, tidy.references, tidy.states, tidy.counted⟩
    · intro other later found
      obtain ⟨bridge, held, same | same⟩ := cases other later found
      · rw [same]
        exact tidy.installed other bridge held
      · rw [same, sameInstalled]
        exact tidy.installed other bridge held
    · intro other later found
      obtain ⟨bridge, held, same | same⟩ := cases other later found
      · rw [same]
        exact tidy.served other bridge held
      · rw [same, sameClass]
        exact tidy.served other bridge held
    · intro other later found
      obtain ⟨bridge, held, same | same⟩ := cases other later found
      · rw [same]
        exact tidy.sound other bridge held
      · rw [same]
        exact sound bridge (tidy.sound other bridge held)
  backlog := rfl
  mode := rfl
  spent := fun _ spent => spent
  bridges := by
    intro other bridge found
    rw [bridge_modify]
    by_cases same : other = id
    · subst same
      exact ⟨change bridge, by simp [found], grows bridge⟩
    · exact ⟨bridge, by rw [if_neg same, found], Nat.le_refl _⟩

theorem upkeep_modify_states (id : BridgeId) {change : Slab SignalState → Slab SignalState}
    (sound : ∀ states, states.Sound → (change states).Sound)
    (grows : ∀ states, states.capacity ≤ (change states).capacity) :
    Upkeep world (world.modifyStates id change) :=
  upkeep_modify_bridge world id (fun _ => rfl) (fun _ => rfl) (fun bridge => sound bridge.states)
    fun bridge => grows bridge.states

theorem upkeep_activity (id : BridgeId) (active : Nat → Nat) :
    Upkeep world
      (world.modifyBridge id fun bridge => { bridge with active := active bridge.active }) :=
  upkeep_modify_bridge world id (fun _ => rfl) (fun _ => rfl) (fun _ sound => sound)
    fun _ => Nat.le_refl _

theorem upkeep_begin_call (id : BridgeId) : Upkeep world (world.beginCall id) :=
  upkeep_activity world id (· + 1)

theorem upkeep_reserve : Upkeep world world.reserveClass where
  tidy := by
    intro tidy
    have same : ∀ classId, world.reserveClass.engine.registry.record? classId =
        world.engine.registry.record? classId := Registry.record_reserve _
    refine ⟨tidy.running, ?_, tidy.installed, ?_, tidy.sound, tidy.references, tidy.states,
      tidy.counted⟩
    · intro classId record found
      rw [same] at found
      exact tidy.classes classId record found
    · intro id bridge found
      rw [same]
      exact tidy.served id bridge found
  backlog := rfl
  mode := rfl
  spent := fun _ spent => spent
  bridges := fun _ bridge found => ⟨bridge, found, Nat.le_refl _⟩

theorem tidy_install (tidy : world.Tidy) {classId : ClassId}
    (vacant : world.engine.registry.checkOpen classId = .ok ()) (config : Config) :
    ((world.addBridge classId config true).defineClass classId
      world.nextBridge.definition).Tidy := by
  let added := world.addBridge classId config true
  have bridges : ∀ id, (added.defineClass classId world.nextBridge.definition).bridge? id =
      if id = world.nextBridge then some ⟨classId, config, .empty, true, 0⟩
      else world.bridge? id := bridge_add world classId config true
  have records : ∀ other,
      (added.defineClass classId world.nextBridge.definition).engine.registry.record? other =
        if other = classId then
          some (Registry.made world.nextBridge.definition world.engine.heap.nextId)
        else world.engine.registry.record? other := Registry.record_define vacant _ _
  refine ⟨tidy.running, ?_, ?_, ?_, ?_, tidy.references, tidy.states, tidy.counted⟩
  · intro other record found
    rw [records] at found
    by_cases same : other = classId
    · rw [if_pos same] at found
      cases found
      exact ⟨world.nextBridge, rfl⟩
    · rw [if_neg same] at found
      exact tidy.classes other record found
  · intro id bridge found
    rw [bridges] at found
    by_cases new : id = world.nextBridge
    · rw [if_pos new] at found
      cases found
      rfl
    · rw [if_neg new] at found
      exact tidy.installed id bridge found
  · intro id bridge found
    rw [bridges] at found
    rw [records]
    by_cases new : id = world.nextBridge
    · rw [if_pos new] at found
      cases found
      rw [if_pos rfl, new]
      exact ⟨world.engine.heap.nextId, rfl⟩
    · rw [if_neg new] at found
      obtain ⟨proto, held⟩ := tidy.served id bridge found
      have apart : bridge.classId ≠ classId := by
        rintro same
        rw [same, Registry.record_of_open vacant] at held
        cases held
      rw [if_neg apart]
      exact ⟨proto, held⟩
  · intro id bridge found
    rw [bridges] at found
    by_cases new : id = world.nextBridge
    · rw [if_pos new] at found
      cases found
      exact Slab.sound_empty
    · rw [if_neg new] at found
      exact tidy.sound id bridge found

theorem upkeep_install {classId : ClassId}
    (vacant : world.engine.registry.checkOpen classId = .ok ()) (config : Config) :
    Upkeep world ((world.addBridge classId config true).defineClass classId
      world.nextBridge.definition) where
  tidy := fun tidy => tidy_install world tidy vacant config
  backlog := rfl
  mode := rfl
  spent := fun place spent => (upkeep_allocate
    { world.addBridge classId config true with
      engine.registry := world.engine.registry.define classId world.nextBridge.definition
        world.engine.heap.nextId }
    .plain none).spent place spent
  bridges := fun id bridge found => by
    obtain ⟨later, reached, -, -, -, grown⟩ :=
      (persists_add_bridge world classId config true).bridges id bridge found
    exact ⟨later, reached, grown⟩

theorem upkeep_client {after : World} (rest : after = { world with client := after.client })
    (references : world.client.references.Distinct → after.client.references.Distinct)
    (states : world.client.states.Distinct → after.client.states.Distinct) :
    Upkeep world after := by
  rw [rest]
  exact ⟨fun tidy => ⟨tidy.running, tidy.classes, tidy.installed, tidy.served, tidy.sound,
    references tidy.references, states tidy.states, tidy.counted⟩, rfl, rfl,
    fun _ spent => spent, fun _ bridge found => ⟨bridge, found, Nat.le_refl _⟩⟩

end Primitives

end World

end ScriptSignal
