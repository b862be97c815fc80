import ScriptSignal.Proofs.Alterations

/-!
# Classes under their names

Ids of classes are reserved and classes are defined, and nothing else is ever done to the registry.
A run is kept here with the list of all classes that were defined on the way. A name means the
latest of those that were defined under it, an installed bridge keeps the class it was installed
with, and an instance is of a class that was defined.
-/

namespace ScriptSignal

set_option autoImplicit false

namespace Registry

/-- These classes were defined from one registry to the next, the last one first. -/
inductive Defines (before : Registry) : List ClassId → Registry → Prop
  | refl : Defines before [] before
  | reserve {log : List ClassId} {after : Registry} (defines : Defines before log after) :
      Defines before log after.reserve
  | define {log : List ClassId} {after : Registry} {classId : ClassId}
      (defines : Defines before log after) (vacant : after.checkOpen classId = .ok ())
      (definition : ClassDefinition) (proto : ObjectId) :
      Defines before (classId :: log) (after.define classId definition proto)

def latest? (registry : Registry) (log : List ClassId) (name : String) : Option ClassId :=
  log.find? fun classId => (registry.record? classId).map ClassRecord.name = some name

structure Chronicled (registry : Registry) (log : List ClassId) : Prop where
  defined : ∀ classId ∈ log, ∃ record, registry.record? classId = some record
  named : ∀ name, registry.idOf? name = registry.latest? log name

section Defines

variable {before registry after : Registry} {log more : List ClassId} {classId : ClassId}

theorem Defines.trans (first : Defines before log registry) (last : Defines registry more after) :
    Defines before (more ++ log) after := by
  induction last with
  | refl => exact first
  | reserve _ induction => exact induction.reserve
  | define _ vacant definition proto induction => exact induction.define vacant definition proto

theorem latest_of_same (same : ∀ classId ∈ log, after.record? classId = before.record? classId)
    (name : String) : after.latest? log name = before.latest? log name := by
  unfold latest?
  induction log with
  | nil => rfl
  | cons classId log induction =>
      have rest := induction fun other member => same other (List.mem_cons_of_mem _ member)
      rw [List.find?_cons, List.find?_cons, same classId List.mem_cons_self, rest]

theorem Chronicled.reserve (chronicled : Chronicled registry log) :
    Chronicled registry.reserve log where
  defined := fun classId member => by
    rw [record_reserve]
    exact chronicled.defined classId member
  named := by
    intro name
    rw [latest_of_same fun classId _ => record_reserve registry classId]
    exact chronicled.named name

theorem Chronicled.define (chronicled : Chronicled registry log)
    (vacant : registry.checkOpen classId = .ok ()) (definition : ClassDefinition)
    (proto : ObjectId) :
    Chronicled (registry.define classId definition proto) (classId :: log) := by
  have records := record_define vacant definition proto
  have here := (records classId).trans (if_pos rfl)
  have old : ∀ other ∈ log, (registry.define classId definition proto).record? other =
      registry.record? other := by
    intro other member
    have apart : other ≠ classId := by
      rintro rfl
      obtain ⟨record, found⟩ := chronicled.defined other member
      rw [record_of_open vacant] at found
      cases found
    rw [records, if_neg apart]
  constructor
  · intro other member
    rcases List.mem_cons.1 member with rfl | member
    · exact ⟨_, here⟩
    · rw [old other member]
      exact chronicled.defined other member
  · intro name
    have meant : (registry.define classId definition proto).idOf? name =
        (registry.names.insert definition.name classId).find? name := rfl
    rw [meant]
    unfold latest?
    rw [List.find?_cons, here]
    by_cases same : definition.name = name
    · subst same
      simp [made]
    · have apart : decide ((some (made definition proto)).map ClassRecord.name = some name)
          = false := by
        simpa [made] using same
      rw [apart, NameMap.find_insert_other _ (Ne.symm same)]
      exact (chronicled.named name).trans (latest_of_same old name).symm

theorem Chronicled.defines (chronicled : Chronicled before log)
    (defines : Defines before more after) : Chronicled after (more ++ log) := by
  induction defines with
  | refl => exact chronicled
  | reserve _ induction => exact induction.reserve
  | define _ vacant definition proto induction => exact induction.define vacant definition proto

theorem chronicled_empty : Chronicled .empty [] :=
  ⟨fun _ member => absurd member List.not_mem_nil, fun _ => rfl⟩

end Defines

end Registry

namespace World

structure Wired (world : World) : Prop where
  instances : ∀ value classId, world.classOf? value = some classId →
    ∃ record, world.engine.registry.record? classId = some record
  bridges : ∀ id table, world.bridge? id = some table → table.installed = true →
    ∃ record, world.engine.registry.record? table.classId = some record ∧
      record = Registry.made id.definition record.proto

section Wired

variable {before after : World}

theorem wired_start (setting : Setting) : (start setting).Wired where
  instances := by
    intro value classId found
    cases value <;> simp [start, Engine.start, classOf?, object?, Value.object?, Heap.empty,
      Heap.get?] at found
  bridges := by
    intro id table found
    simp [start, bridge?] at found

theorem Wired.of_same (wired : before.Wired)
    (registry : after.engine.registry = before.engine.registry)
    (instances : ∀ value classId, after.classOf? value = some classId →
      before.classOf? value = some classId)
    (bridges : ∀ id, (after.bridge? id).map (fun table => (table.classId, table.installed)) =
      (before.bridge? id).map fun table => (table.classId, table.installed)) : after.Wired := by
  constructor
  · intro value classId found
    rw [registry]
    exact wired.instances value classId (instances value classId found)
  · intro id later found installed
    have same := bridges id
    rw [found] at same
    obtain ⟨table, origin, pair⟩ := Option.map_eq_some_iff.1 same.symm
    obtain ⟨sameClass, sameInstalled⟩ := Prod.mk.inj pair
    rw [registry, ← sameClass]
    exact wired.bridges id table origin (sameInstalled.trans installed)

/-- The class of an installed bridge has the bridge's own functions. -/
theorem Wired.made (wired : before.Wired) {classId : ClassId} {record : ClassRecord}
    (defined : before.engine.registry.record? classId = some record) {id : BridgeId}
    {table : Bridge} (found : before.bridge? id = some table) (installed : table.installed = true)
    (same : table.classId = classId) : record = Registry.made id.definition record.proto := by
  obtain ⟨own, owned, made⟩ := wired.bridges id table found installed
  rw [same, defined] at owned
  cases owned
  exact made

theorem Change.wired (change : Change before after) (wired : before.Wired) : after.Wired := by
  have persists := change.persists
  constructor
  · intro value classId found
    rcases change.class_of found with old | new
    · obtain ⟨record, defined⟩ := wired.instances value classId old
      exact ⟨record, persists.records classId record defined⟩
    · exact Option.isSome_iff_exists.1 new
  · intro id later found installed
    cases origin : before.bridge? id with
    | some table =>
        obtain ⟨same, again, sameClass, -, sameInstalled, -⟩ := persists.bridges id table origin
        have equal : same = later := Option.some.inj (again.symm.trans found)
        subst equal
        obtain ⟨record, defined, made⟩ := wired.bridges id table origin
          (sameInstalled.symm.trans installed)
        exact ⟨record, by rw [sameClass]; exact persists.records _ _ defined, made⟩
    | none =>
        rcases change.bridges id with same | ⟨-, table, new, -, made⟩
        · simp [origin, found] at same
        · have equal : table = later := Option.some.inj (new.symm.trans found)
          subst equal
          exact (made installed).2

theorem registry_remove_object (world : World) (id : ObjectId) :
    (world.removeObject id).1.engine.registry = world.engine.registry := by
  unfold removeObject
  split <;> rfl

theorem class_of_remove_object {world : World} {id : ObjectId} {value : Value}
    {classId : ClassId} (found : (world.removeObject id).1.classOf? value = some classId) :
    world.classOf? value = some classId := by
  rw [class_of_eq, kind_remove_object] at found
  rw [class_of_eq]
  split at found
  · cases found
  · exact found

theorem Alters.wired (alters : Alters before after) (wired : before.Wired) : after.Wired := by
  cases alters with
  | change change => exact change.wired wired
  | slot value classId key =>
      refine wired.of_same (same_setting_set_slot before value classId key).registry ?_ ?_
      · intro other ofClass found
        rwa [class_of_set_slot] at found
      · intro id
        rw [bridge_set_slot]
  | states id change =>
      refine wired.of_same rfl (fun _ _ found => found) ?_
      intro other
      rw [bridge_modify_states]
      split
      · rename_i same
        rw [same]
        cases before.bridge? id <;> rfl
      · rfl
  | remove id =>
      refine wired.of_same (registry_remove_object before id)
        (fun _ _ found => class_of_remove_object found) ?_
      intro other
      rw [bridge_remove_object]

theorem Change.defines (change : Change before after) :
    ∃ log, before.engine.registry.Defines log after.engine.registry := by
  cases change with
  | reserve => exact ⟨[], .reserve .refl⟩
  | @define classId definition vacant known => exact ⟨[classId], .define .refl vacant _ _⟩
  | @install classId config vacant => exact ⟨[classId], .define .refl vacant _ _⟩
  | _ => exact ⟨[], .refl⟩

theorem Alters.defines (alters : Alters before after) :
    ∃ log, before.engine.registry.Defines log after.engine.registry := by
  cases alters with
  | change change => exact change.defines
  | slot value classId key =>
      exact ⟨[], (same_setting_set_slot before value classId key).registry ▸ .refl⟩
  | states id change => exact ⟨[], .refl⟩
  | remove id => exact ⟨[], registry_remove_object before id ▸ .refl⟩

theorem Alterations.wired (alterations : Alterations before after) (wired : before.Wired) :
    after.Wired := by
  induction alterations with
  | refl => exact wired
  | tail _ alters induction => exact alters.wired induction

theorem Alterations.defines (alterations : Alterations before after) :
    ∃ log, before.engine.registry.Defines log after.engine.registry := by
  induction alterations with
  | refl => exact ⟨[], .refl⟩
  | tail _ alters induction =>
      obtain ⟨log, first⟩ := induction
      obtain ⟨more, last⟩ := alters.defines
      exact ⟨more ++ log, first.trans last⟩

end Wired

end World

namespace Machine

/-- The machines that come about, each with the classes that were defined on the way to it, the
last one first. -/
inductive Chronicle : Machine → List ClassId → Prop
  | start (setting : Setting) : Chronicle (start setting) []
  | submit {machine : Machine} {log : List ClassId} {step : Step}
      (chronicle : Chronicle machine log) (idle : machine.agenda = [])
      (known : step.Known machine.world) : Chronicle (machine.submit step) log
  | step {machine : Machine} {log more : List ClassId} (chronicle : Chronicle machine log)
      (defines : machine.world.engine.registry.Defines more machine.step.world.engine.registry) :
      Chronicle machine.step (more ++ log)

section Chronicle

variable {machine : Machine} {log : List ClassId}

theorem Informed.wired (informed : machine.Informed)
    (running : machine.world.engine.running = true) : machine.world.Wired := by
  induction informed with
  | start setting => exact World.wired_start setting
  | submit _ _ _ induction => exact induction running
  | step informed induction =>
      have wired := induction (informed.attained.running_of_step running)
      exact (informed.alterations running).wired wired

theorem Informed.chronicle (informed : machine.Informed)
    (running : machine.world.engine.running = true) : ∃ log, Chronicle machine log := by
  induction informed with
  | start setting => exact ⟨[], .start setting⟩
  | submit _ idle known induction =>
      obtain ⟨log, chronicle⟩ := induction running
      exact ⟨log, chronicle.submit idle known⟩
  | step informed induction =>
      obtain ⟨log, chronicle⟩ := induction (informed.attained.running_of_step running)
      obtain ⟨more, defines⟩ := (informed.alterations running).defines
      exact ⟨more ++ log, chronicle.step defines⟩

theorem Chronicle.chronicled (chronicle : Chronicle machine log) :
    machine.world.engine.registry.Chronicled log := by
  induction chronicle with
  | start setting => exact Registry.chronicled_empty
  | submit _ _ _ induction => exact induction
  | step _ defines induction => exact induction.defines defines

end Chronicle

end Machine

end ScriptSignal
