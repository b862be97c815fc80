import ScriptSignal.Proofs.Changes

/-!
# Which operations are small changes

Reading, counting references, making objects and classes, and all that a client does with
its names amount to small changes and leave ordinary work.
-/

namespace ScriptSignal

set_option autoImplicit false

namespace World

theorem changes_emit (world : World) (event : Event) : Changes world (world.emit event) :=
  .single (.emit world event)

theorem changes_duplicate (world : World) (value : Value) :
    Changes world (world.duplicate value) := by
  unfold duplicate
  split
  · split
    · rename_i found
      exact .single (.recount found _)
    · exact changes_emit world _
  · exact .refl

theorem changes_acquire (world : World) (value : Value) : Changes world (world.acquire value) :=
  (changes_duplicate world value).tail (.emit _ _)

theorem within_of_get {world : World} {id : ObjectId} {object : Object}
    (found : world.engine.heap.get? id = some object) : id.index < world.size :=
  Heap.index_lt_of_get found

theorem object_of_alive {world : World} {value : Value} (alive : world.isAlive value = true) :
    ∃ id object, value = .object id ∧ world.engine.heap.get? id = some object := by
  obtain ⟨object, found⟩ := Option.isSome_iff_exists.1 alive
  cases value with
  | object id => exact ⟨id, object, rfl, found⟩
  | _ => cases found

theorem is_defined_of_persists {before after : World} (persists : Persists before after)
    {classId : ClassId} (defined : before.isDefined classId = true) :
    after.isDefined classId = true := by
  obtain ⟨record, found⟩ := Option.isSome_iff_exists.1 defined
  exact Option.isSome_iff_exists.2 ⟨record, persists.records classId record found⟩

theorem changes_allocate_instance {world : World} {proto : Value} {classId : ClassId}
    (defined : world.isDefined classId = true) :
    Changes world (world.allocateInstance proto classId) := by
  unfold allocateInstance
  split
  · rename_i alive
    obtain ⟨id, object, rfl, found⟩ := object_of_alive alive
    have duplicated := changes_duplicate world (.object id)
    refine duplicated.tail (.allocate ⟨rfl, ?_⟩ ?_)
    · exact is_defined_of_persists duplicated.persists defined
    · intro other member
      cases member
      exact Nat.lt_of_lt_of_le (within_of_get found) duplicated.persists.size
  · exact .single (.allocate ⟨rfl, defined⟩ (by simp))

end World

def Task.Ordinary : Task → Prop
  | .bind _ _ _ _ | .remove _ => False
  | _ => True

/-- An outcome that is reached by small changes and leaves ordinary work on known handles. -/
structure Outcome.Plain (before : World) (outcome : Outcome) : Prop where
  changes : World.Changes before outcome.1
  ordinary : ∀ task ∈ outcome.2, task.Ordinary
  within : ∀ task ∈ outcome.2, task.Within outcome.1.size

namespace World

theorem plain_done {before after : World} {reply : Reply} (changes : Changes before after)
    (known : reply.Within after.size) : Outcome.Plain before (after.done reply) where
  changes := changes
  ordinary := by simp [done, Task.Ordinary]
  within := by simpa [done, Task.Within] using known

theorem plain_after {before after : World} {tasks : List Task} {reply : Reply}
    (changes : Changes before after)
    (gives : ∀ task ∈ tasks, (∃ value, task = .release value) ∨ (∃ held, task = .drop held) ∨
      ∃ id, task = .settle id)
    (known : reply.Within after.size) :
    Outcome.Plain before (after.after tasks reply) where
  changes := changes
  ordinary := by
    intro task member
    rcases List.mem_append.1 member with early | last
    · rcases gives task early with ⟨value, rfl⟩ | ⟨held, rfl⟩ | ⟨id, rfl⟩ <;> trivial
    · cases List.mem_singleton.1 last
      trivial
  within := by
    intro task member
    rcases List.mem_append.1 member with early | last
    · rcases gives task early with ⟨value, rfl⟩ | ⟨held, rfl⟩ | ⟨id, rfl⟩ <;> trivial
    · cases List.mem_singleton.1 last
      exact known

theorem plain_nothing {before after : World} (changes : Changes before after) :
    Outcome.Plain before (after, []) :=
  ⟨changes, by simp, by simp⟩

theorem plain_give {world : World} {found : Except Failure Value}
    (known : ∀ value, found = .ok value → value.Within world.size) :
    Outcome.Plain world (world.give found) := by
  cases found with
  | error failure => exact plain_done .refl trivial
  | ok value =>
      have duplicated := changes_duplicate world value
      exact plain_done duplicated ((known value rfl).mono duplicated.persists.size)

theorem within_of_lookup {world : World} (grounded : world.Grounded) {key : String} {steps : Nat}
    {id : ObjectId} {value : Value}
    (found : world.engine.heap.lookupWithin key steps id = some value) :
    value.Within world.size := by
  induction steps generalizing id with
  | zero => cases found
  | succ steps induction =>
      unfold Heap.lookupWithin at found
      split at found
      · cases found
      · rename_i object held
        split at found
        · rename_i here
          cases found
          have owned := grounded.objects id object held
          refine owned value (List.mem_append_left _ ?_)
          exact NameMap.mem_values_of_find here
        · split at found
          · exact induction found
          · cases found

theorem within_of_property {world : World} (grounded : world.Grounded) {target value : Value}
    {key : String} (found : world.property? target key = .ok value) :
    value.Within world.size := by
  cases target with
  | object id =>
      simp only [property?, Except.ok.injEq, Heap.lookup] at found
      cases reached : world.engine.heap.lookupWithin key (id.index + 1) id with
      | none =>
          rw [reached] at found
          cases found
          trivial
      | some held =>
          rw [reached] at found
          cases found
          exact within_of_lookup grounded reached
  | _ => cases found

theorem within_of_class_prototype {world : World} (grounded : world.Grounded)
    {classId : ClassId} {value : Value} (found : world.classPrototype? classId = .ok value) :
    value.Within world.size := by
  unfold classPrototype? at found
  split at found
  · rename_i record held
    cases found
    exact (grounded.classes classId record held).proto
  · cases found

theorem plain_get_property {world : World} (grounded : world.Grounded) (target : Value)
    (key : String) : Outcome.Plain world (world.getProperty target key) :=
  plain_give fun _ found => within_of_property grounded found

theorem plain_class_prototype {world : World} (grounded : world.Grounded) (classId : ClassId) :
    Outcome.Plain world (world.classPrototype classId) :=
  plain_give fun _ found => within_of_class_prototype grounded found

theorem next_within_allocate_instance (world : World) (proto : Value) (classId : ClassId) :
    world.nextValue.Within (world.allocateInstance proto classId).size := by
  unfold allocateInstance
  split
  · rw [size_allocate]
    exact Nat.lt_succ_of_le (changes_duplicate world proto).persists.size
  · rw [size_allocate]
    exact Nat.lt_succ_self _

theorem plain_instantiate (world : World) (proto : Value) (classId : ClassId) :
    Outcome.Plain world (world.instantiate proto classId) := by
  unfold instantiate
  split
  · rename_i defined
    exact plain_done (changes_allocate_instance defined) (next_within_allocate_instance _ _ _)
  · exact plain_done .refl trivial

theorem plain_set_property {world : World} (target : Value) (key : String) {value : Value}
    (known : value.Within world.size) :
    Outcome.Plain world (world.setProperty target key value) := by
  unfold setProperty
  split
  · split
    · rename_i found
      exact plain_after (.single (.write found key known)) (by simp) trivial
    · exact plain_after .refl (by simp) trivial
  · exact plain_after .refl (by simp) trivial

theorem plain_release_object {world : World} (grounded : world.Grounded) (id : ObjectId) :
    Outcome.Plain world (world.releaseObject id) := by
  unfold releaseObject
  split
  · exact plain_nothing (changes_emit _ _)
  · rename_i object found
    split
    · exact plain_nothing (changes_emit _ _)
    · rename_i count references
      have counted : Changes world (world.putObject id { object with refCount := count }) :=
        .single (.recount found count)
      have known : id.index < (world.putObject id { object with refCount := count }).size :=
        Nat.lt_of_lt_of_le (within_of_get found) counted.persists.size
      dsimp only
      split
      · split
        · exact ⟨counted, by simp [Task.Ordinary], by simpa [Task.Within] using known⟩
        · refine plain_nothing ((counted.tail (.queue ?_)).tail (.emit _ _))
          intro other member
          rw [Backlog.items_defer, List.mem_append, List.mem_singleton] at member
          rcases member with old | rfl
          · exact (counted.grounded grounded).waiting other old
          · exact known
      · exact plain_nothing counted

theorem plain_release {world : World} (grounded : world.Grounded) (value : Value) :
    Outcome.Plain world (world.release value) := by
  unfold release
  split
  · exact plain_release_object grounded _
  · exact plain_nothing .refl

theorem plain_drop_reference (world : World) (held : StrongRef) :
    Outcome.Plain world (world.dropReference held) := by
  unfold dropReference
  split
  · exact ⟨changes_emit _ _, by simp [Task.Ordinary], by simp [Task.Within]⟩
  · exact plain_nothing (changes_emit _ _)

theorem plain_drain {world : World} (grounded : world.Grounded) (count : Nat) :
    Outcome.Plain world (world.drain count) := by
  unfold drain
  split
  · rename_i id backlog taken
    have items := Backlog.items_eq_cons_of_next taken
    have known : ∀ other ∈ backlog.items, other.index < world.size := by
      intro other member
      exact grounded.waiting other (by simp [items, member])
    have first : id.index < world.size := grounded.waiting id (by simp [items])
    refine ⟨.single (.queue known), by simp [Task.Ordinary], ?_⟩
    intro task member
    simp only [List.mem_cons, List.not_mem_nil, or_false] at member
    rcases member with rfl | rfl
    · exact first
    · trivial
  · split
    · exact plain_nothing (changes_emit _ _)
    · exact plain_nothing .refl

theorem plain_collect (world : World) : Outcome.Plain world world.collect := by
  unfold collect
  dsimp only
  split
  · exact ⟨.refl, by simp [Task.Ordinary], by simp [Task.Within]⟩
  · exact ⟨.refl, by simp [Task.Ordinary], by simp [Task.Within]⟩

theorem plain_report_collection (world : World) (finalizedBefore : Nat) :
    Outcome.Plain world (world.reportCollection finalizedBefore) := by
  unfold reportCollection
  dsimp only
  split
  · exact plain_done (changes_emit _ _) trivial
  · exact plain_done .refl trivial

theorem changes_client {world after : World} (grounded : world.Grounded)
    (rest : after = { world with client := after.client })
    (same : after.client.registers = world.client.registers) : Changes world after := by
  rw [rest]
  exact .single (.client (by rw [same]; exact grounded.registers))

theorem changes_set_register {world : World} (grounded : world.Grounded) (name : String)
    {value : Value} (known : value.Within world.size) :
    Changes world (world.setRegister name value) := by
  refine .single (.client ?_)
  intro other held found
  by_cases same : other = name
  · subst same
    rw [NameMap.find_insert_same] at found
    cases found
    exact known
  · rw [NameMap.find_insert_other _ same] at found
    exact grounded.registers other held found

theorem plain_store_bridge {before world : World} {name : String} {id : BridgeId} {reply : Reply}
    (changes : Changes before world) (grounded : before.Grounded)
    (known : reply.Within world.size) :
    Outcome.Plain before (world.storeBridge name id reply) := by
  unfold storeBridge
  dsimp only
  exact plain_after (changes.trans (changes_client (changes.grounded grounded) rfl rfl)) (by simp)
    known

theorem plain_install_bridge {world : World} (grounded : world.Grounded) (name : String)
    (config : Config) : Outcome.Plain world (world.installBridge name config) := by
  unfold installBridge
  dsimp only
  split
  · exact plain_done (.single (.reserve world)) trivial
  · rename_i vacant
    refine plain_store_bridge ?_ grounded trivial
    exact ((Relation.ReflTransGen.single (.reserve world)).tail (.install config vacant)).tail
      (.emit _ _)

theorem plain_create_bridge {world : World} (grounded : world.Grounded) (name : String)
    (classId : ClassId) (config : Config) :
    Outcome.Plain world (world.createBridge name classId config) :=
  plain_store_bridge (.single (.create world classId config)) grounded trivial

theorem plain_drop_bridge {world : World} (grounded : world.Grounded) (name : String) :
    Outcome.Plain world (world.dropBridge name) := by
  unfold dropBridge
  split
  · exact plain_done .refl trivial
  · exact plain_after (changes_client grounded rfl rfl) (by simp) trivial

theorem plain_store_reference {before world : World} {name : String} {held : StrongRef}
    {reply : Reply} (changes : Changes before world) (grounded : before.Grounded)
    (known : reply.Within world.size) :
    Outcome.Plain before (world.storeReference name held reply) := by
  unfold storeReference
  dsimp only
  exact plain_after (changes.trans (changes_client (changes.grounded grounded) rfl rfl)) (by simp)
    known

theorem plain_acquire_reference {world : World} (grounded : world.Grounded) (name : String)
    (value : Value) : Outcome.Plain world (world.acquireReference name value) :=
  plain_store_reference (changes_acquire world value) grounded trivial

theorem plain_drop_named_reference {world : World} (grounded : world.Grounded) (name : String) :
    Outcome.Plain world (world.dropNamedReference name) := by
  unfold dropNamedReference
  split
  · exact plain_done .refl trivial
  · exact plain_after (changes_client grounded rfl rfl) (by simp) trivial

theorem drops_of_states (states : List SignalState) :
    ∀ task ∈ states.flatMap (fun state => state.held.map Task.drop),
      (∃ value, task = .release value) ∨ (∃ held, task = .drop held) ∨
        ∃ id, task = .settle id := by
  intro task member
  obtain ⟨state, -, inside⟩ := List.mem_flatMap.1 member
  obtain ⟨held, -, rfl⟩ := List.mem_map.1 inside
  exact .inr (.inl ⟨held, rfl⟩)

theorem plain_create_state {world : World} (grounded : world.Grounded) (name : String)
    (link : Option String) : Outcome.Plain world (world.createState name link) := by
  unfold createState
  cases link with
  | none => exact plain_after (changes_client grounded rfl rfl) (drops_of_states _) trivial
  | some link => exact plain_after (changes_client grounded rfl rfl) (drops_of_states _) trivial

theorem plain_set_state_callback {world : World} (grounded : world.Grounded) (name : String)
    (callback : Value) : Outcome.Plain world (world.setStateCallback name callback) := by
  unfold setStateCallback
  split
  · exact plain_done .refl trivial
  · split
    · have acquired := changes_acquire world callback
      exact plain_done (acquired.trans (changes_client (acquired.grounded grounded) rfl rfl))
        trivial
    · exact plain_done .refl trivial

theorem plain_clear_state {world : World} (grounded : world.Grounded) (name : String)
    (keep : Option String) : Outcome.Plain world (world.clearState name keep) := by
  unfold clearState
  split
  · exact plain_done .refl trivial
  · rename_i state found
    split
    · exact plain_done .refl trivial
    · have cleared : Changes world (world.putState name state.cleared) :=
        changes_client grounded rfl rfl
      dsimp only
      split
      · exact plain_store_reference cleared grounded trivial
      · exact plain_after cleared (by simp) trivial

theorem plain_drop_state {world : World} (grounded : world.Grounded) (name : String) :
    Outcome.Plain world (world.dropState name) := by
  unfold dropState
  split
  · exact plain_done .refl trivial
  · rename_i state found
    refine plain_after (changes_client grounded rfl rfl) ?_ trivial
    simp

end World

end ScriptSignal
