import Mathlib.Data.List.Induction
import ScriptSignal.Proofs.Inscriptions

/-!
# Classes by the calls that made them

The registry is determined by the calls that were made to it. A roll is kept of them along a run: of
the ids that were handed out, and of the definitions that were accepted, each with the prototype it
was given. A definition is accepted once for every id that was handed out, and no other is. What a
class or a name is can then be read from the roll, and so can the finalizer of every instance.
-/

namespace ScriptSignal

set_option autoImplicit false

theorem NameMap.find_of_list {α : Type} (pairs : List (String × α)) (name : String) :
    (ofList pairs).find? name =
      (pairs.reverse.find? fun pair => pair.1 = name).map Prod.snd := by
  induction pairs using List.reverseRecOn with
  | nil => rfl
  | append_singleton pairs pair induction =>
      have last : ofList (pairs ++ [pair]) = (ofList pairs).insert pair.1 pair.2 := by
        simp [ofList]
      rw [last, List.reverse_append, List.reverse_singleton, List.singleton_append,
        List.find?_cons]
      by_cases same : pair.1 = name
      · subst same
        simp
      · rw [find_insert_other _ (Ne.symm same), induction]
        simp [same]

/-- The ids that were handed out, and the definitions that were accepted with the prototypes of
their classes, each the last one first. -/
structure Roll where
  handed : List ClassId
  defined : List (ClassId × ClassDefinition × ObjectId)

namespace Roll

def empty : Roll := ⟨[], []⟩

def numbered (place : Nat) : ClassId := ⟨UInt32.ofNat place⟩

def next (roll : Roll) : ClassId := numbered roll.handed.length

/-- An id was handed out, and no class was defined under it. -/
def Opens (roll : Roll) (classId : ClassId) : Prop :=
  classId ∈ roll.handed ∧ ∀ entry ∈ roll.defined, entry.1 ≠ classId

instance (roll : Roll) (classId : ClassId) : Decidable (roll.Opens classId) :=
  inferInstanceAs (Decidable (_ ∧ _))

def definition? (roll : Roll) (classId : ClassId) : Option (ClassDefinition × ObjectId) :=
  (roll.defined.find? fun entry => entry.1 = classId).map Prod.snd

def meaning? (roll : Roll) (name : String) : Option ClassId :=
  (roll.defined.find? fun entry => entry.2.1.name = name).map Prod.fst

/-- What a call adds to the roll. The place is the one where a new prototype goes. -/
def enter (place : ObjectId) (roll : Roll) : Inscription → Roll
  | .reserve => { roll with handed := roll.next :: roll.handed }
  | .define classId definition =>
      if roll.Opens classId then
        { roll with defined := (classId, definition, place) :: roll.defined }
      else roll
  | .slot _ _ _ => roll

theorem definition_eq_none_iff {roll : Roll} {classId : ClassId} :
    roll.definition? classId = none ↔ ∀ entry ∈ roll.defined, entry.1 ≠ classId := by
  simp [definition?]

end Roll

namespace Registry

structure Matches (registry : Registry) (roll : Roll) : Prop where
  order : roll.handed.reverse = (List.range registry.classes.size).map Roll.numbered
  once : (roll.defined.map Prod.fst).Nodup
  records : ∀ classId, registry.record? classId =
    (roll.definition? classId).map fun entry => made entry.1 entry.2
  names : ∀ name, registry.idOf? name = roll.meaning? name

section Matches

variable {registry : Registry} {roll : Roll} {classId : ClassId}

theorem matches_empty : Matches .empty .empty where
  order := rfl
  once := List.nodup_nil
  records := fun _ => by simp [record?, empty, Roll.definition?, Roll.empty]
  names := fun _ => rfl

theorem Matches.length (matched : registry.Matches roll) :
    roll.handed.length = registry.classes.size := by
  simpa using congrArg List.length matched.order

theorem Matches.next (matched : registry.Matches roll) : registry.nextId = roll.next := by
  unfold nextId Roll.next Roll.numbered
  rw [matched.length]

theorem Matches.mem_handed (matched : registry.Matches roll) :
    classId ∈ roll.handed ↔ classId.number.toNat < registry.classes.size := by
  rw [← List.mem_reverse, matched.order, List.mem_map]
  constructor
  · rintro ⟨place, within, rfl⟩
    exact Nat.lt_of_le_of_lt (Nat.mod_le place _) (List.mem_range.1 within)
  · intro within
    exact ⟨classId.number.toNat, List.mem_range.2 within, by simp [Roll.numbered]⟩

theorem Matches.open_iff (matched : registry.Matches roll) :
    registry.checkOpen classId = .ok () ↔ roll.Opens classId := by
  have vacant : (∀ entry ∈ roll.defined, entry.1 ≠ classId) ↔ registry.record? classId = none := by
    rw [matched.records, Option.map_eq_none_iff]
    exact Roll.definition_eq_none_iff.symm
  unfold Roll.Opens
  rw [check_open_eq_ok, matched.mem_handed, vacant]
  constructor
  · intro found
    have inside := (Array.getElem?_eq_some_iff.1 found).1
    exact ⟨inside, by simp [record?, found]⟩
  · rintro ⟨inside, none⟩
    simpa [record?, inside] using none

theorem Matches.reserve (matched : registry.Matches roll) (place : ObjectId) :
    registry.reserve.Matches (roll.enter place .reserve) where
  order := by
    have size : registry.reserve.classes.size = registry.classes.size + 1 := Array.size_push _
    rw [size, List.range_succ, List.map_append, ← matched.order, ← matched.length]
    exact List.reverse_cons
  once := matched.once
  records := fun classId => (record_reserve registry classId).trans (matched.records classId)
  names := matched.names

theorem Matches.define (matched : registry.Matches roll) (opens : roll.Opens classId)
    (definition : ClassDefinition) (place : ObjectId) :
    (registry.define classId definition place).Matches
      (roll.enter place (.define classId definition)) := by
  have entered : roll.enter place (.define classId definition) =
      { roll with defined := (classId, definition, place) :: roll.defined } := if_pos opens
  have size : (registry.define classId definition place).classes.size = registry.classes.size := by
    simp [Registry.define]
  rw [entered]
  constructor
  · rw [size]
    exact matched.order
  · rw [List.map_cons, List.nodup_cons]
    refine ⟨?_, matched.once⟩
    intro member
    obtain ⟨entry, listed, same⟩ := List.mem_map.1 member
    exact opens.2 entry listed same
  · intro other
    rw [record_define (matched.open_iff.2 opens)]
    unfold Roll.definition?
    rw [List.find?_cons]
    by_cases same : other = classId
    · subst same
      simp
    · rw [if_neg same, decide_eq_false (Ne.symm same)]
      exact matched.records other
  · intro name
    have meant : (registry.define classId definition place).idOf? name =
        (registry.names.insert definition.name classId).find? name := rfl
    unfold Roll.meaning?
    rw [meant, List.find?_cons]
    by_cases same : definition.name = name
    · subst same
      simp
    · rw [NameMap.find_insert_other _ (Ne.symm same), decide_eq_false same]
      exact matched.names name

end Matches

end Registry

namespace World

section Inscribing

variable {world before after : World} {roll : Roll}

theorem matches_inscribe (matched : world.engine.registry.Matches roll)
    (inscription : Inscription) :
    (world.inscribe inscription).engine.registry.Matches
      (roll.enter world.engine.heap.nextId inscription) := by
  cases inscription with
  | reserve => exact matched.reserve _
  | define classId definition =>
      rcases inscribe_define_cases world classId definition with
        ⟨vacant, same⟩ | ⟨refused, same⟩
      · rw [same]
        exact matched.define (matched.open_iff.1 vacant) definition _
      · have closed : ¬roll.Opens classId := fun opens => refused (matched.open_iff.2 opens)
        rw [same, show roll.enter world.engine.heap.nextId (.define classId definition) = roll from
          if_neg closed]
        exact matched
  | slot value classId key =>
      rw [show (world.inscribe (.slot value classId key)).engine.registry = world.engine.registry
        from (same_setting_set_slot world value classId key).registry]
      exact matched

theorem record_inscribe {classId : ClassId} {record : ClassRecord}
    (found : world.engine.registry.record? classId = some record) (inscription : Inscription) :
    (world.inscribe inscription).engine.registry.record? classId = some record := by
  cases inscription with
  | reserve => exact (Registry.record_reserve _ classId).trans found
  | define ofClass definition =>
      rcases inscribe_define_cases world ofClass definition with ⟨vacant, same⟩ | ⟨-, same⟩
      · rw [same]
        exact (persists_define vacant definition).records classId record found
      · rw [same]
        exact found
  | slot value ofClass key =>
      exact (congrArg (Registry.record? · classId)
        (same_setting_set_slot world value ofClass key).registry).trans found

theorem record_inscribed {classId : ClassId} {record : ClassRecord}
    (found : world.engine.registry.record? classId = some record)
    (inscriptions : List Inscription) :
    (inscriptions.foldl inscribe world).engine.registry.record? classId = some record := by
  induction inscriptions generalizing world with
  | nil => exact found
  | cons inscription inscriptions induction =>
      exact induction (record_inscribe found inscription)

def Classed (world : World) : Prop :=
  ∀ value classId, world.classOf? value = some classId →
    ∃ record, world.engine.registry.record? classId = some record

theorem Classed.inscribe (classed : world.Classed) (inscription : Inscription) :
    (world.inscribe inscription).Classed := by
  have onward : ∀ value classId, world.classOf? value = some classId →
      ∃ record, (world.inscribe inscription).engine.registry.record? classId = some record := by
    intro value classId ofClass
    obtain ⟨record, found⟩ := classed value classId ofClass
    exact ⟨record, record_inscribe found inscription⟩
  intro value classId ofClass
  refine onward value classId ?_
  cases inscription with
  | reserve => exact ofClass
  | define other definition =>
      rcases inscribe_define_cases world other definition with ⟨-, same⟩ | ⟨-, same⟩
      · rw [same, class_of_eq, kind_define] at ofClass
        split at ofClass
        · cases ofClass
        · rwa [class_of_eq]
      · rwa [same] at ofClass
  | slot target other key =>
      exact (class_of_set_slot world target other key value).symm.trans ofClass

theorem Classed.inscribed (classed : world.Classed) (inscriptions : List Inscription) :
    (inscriptions.foldl World.inscribe world).Classed := by
  induction inscriptions generalizing world with
  | nil => exact classed
  | cons inscription inscriptions induction => exact induction (classed.inscribe inscription)

theorem Classed.retained (classed : before.Classed) (retains : Retains before after) :
    after.Classed := by
  intro value classId ofClass
  rw [class_of_eq] at ofClass
  obtain ⟨kind, found, native⟩ := Option.bind_eq_some_iff.1 ofClass
  rw [retains.registry]
  rcases retains.kinds value kind found with same | ⟨-, unbound⟩
  · apply classed value classId
    rw [class_of_eq, same]
    exact native
  · cases kind with
    | native other slot =>
        cases native
        exact Option.isSome_iff_exists.1 unbound.2
    | _ => cases native

end Inscribing

end World

namespace Machine

/-- The machines that come about, each with the roll of the calls that were made to its registry. -/
inductive Enrolled : Machine → Roll → Prop
  | start (setting : Setting) : Enrolled (start setting) .empty
  | submit {machine : Machine} {roll : Roll} (enrolled : Enrolled machine roll)
      (idle : machine.agenda = []) (step : Step) : Enrolled (machine.submit step) roll
  | step {machine : Machine} {roll : Roll} (enrolled : Enrolled machine roll) :
      Enrolled machine.step
        (machine.inscriptions.foldl (Roll.enter machine.world.engine.heap.nextId) roll)

section Enrolled

variable {machine later : Machine} {roll : Roll}

theorem Enrolled.attained (enrolled : Enrolled machine roll) : machine.Attained := by
  induction enrolled with
  | start setting => exact attained_start setting
  | submit _ idle step induction => exact induction.submit idle step
  | step _ induction => exact induction.step

theorem Attained.enrolled (attained : machine.Attained) : ∃ roll, Enrolled machine roll := by
  obtain ⟨setting, ran⟩ := attained
  induction ran with
  | refl => exact ⟨.empty, .start setting⟩
  | tail _ next induction =>
      obtain ⟨roll, enrolled⟩ := induction
      cases next with
      | submit step idle => exact ⟨roll, enrolled.submit idle step⟩
      | step => exact ⟨_, enrolled.step⟩

/-- A step makes of the registry what its calls make of the roll. -/
theorem Attained.matches_step (attained : machine.Attained)
    (matched : machine.world.engine.registry.Matches roll)
    (running : machine.world.engine.running = true)
    (goes : machine.step.world.engine.running = true) :
    machine.step.world.engine.registry.Matches
      (machine.inscriptions.foldl (Roll.enter machine.world.engine.heap.nextId) roll) := by
  rw [(attained.retains_step running goes).registry]
  have writes := writes_inscriptions machine
  generalize machine.inscriptions = inscriptions at *
  cases writes with
  | slot slot =>
      rcases slot with rfl | ⟨value, classId, key, rfl⟩
      · exact matched
      · exact World.matches_inscribe matched (.slot value classId key)
  | reserve => exact World.matches_inscribe matched .reserve
  | define classId definition => exact World.matches_inscribe matched (.define classId definition)
  | install definition =>
      -- To reserve an id allocates nothing, so the prototype goes where it would have gone before.
      have reserved := World.matches_inscribe matched .reserve
      exact World.matches_inscribe reserved (.define _ definition)

theorem Enrolled.matches (enrolled : Enrolled machine roll)
    (running : machine.world.engine.running = true) :
    machine.world.engine.registry.Matches roll := by
  induction enrolled with
  | start setting => exact Registry.matches_empty
  | submit _ _ _ induction => exact induction running
  | step enrolled induction =>
      have before := enrolled.attained.running_of_step running
      exact enrolled.attained.matches_step (induction before) before running

theorem Enrolled.classed (enrolled : Enrolled machine roll)
    (running : machine.world.engine.running = true) : machine.world.Classed := by
  induction enrolled with
  | start setting => exact (World.wired_start setting).instances
  | submit _ _ _ induction => exact induction running
  | step enrolled induction =>
      have before := enrolled.attained.running_of_step running
      exact ((induction before).inscribed _).retained
        (enrolled.attained.retains_step before running)

/-- Once a class is defined, its record is the same in every machine that follows. -/
theorem Attained.record (attained : machine.Attained) {classId : ClassId} {record : ClassRecord}
    (found : machine.world.engine.registry.record? classId = some record)
    (nexts : Relation.ReflTransGen Next machine later)
    (running : later.world.engine.running = true) :
    later.world.engine.registry.record? classId = some record := by
  induction nexts with
  | refl => exact found
  | @tail before _ ran next induction =>
      have attains := attained.nexts ran
      cases next with
      | submit step idle => exact induction running
      | step =>
          have runs := attains.running_of_step running
          rw [(attains.retains_step runs running).registry]
          exact World.record_inscribed (induction runs) _

end Enrolled

/-- A class is defined if its id was handed out and is still open. Nothing at all is done
otherwise. -/
def DefinesByRoll (machine : Machine) (roll : Roll) : Prop :=
  ∀ label classId name constructor methods finalizer rest,
    machine.agenda = .perform (.define label classId name constructor methods finalizer) :: rest →
    if roll.Opens classId then
      machine.step.agenda = .answer .nothing :: .finish label :: rest ∧
        machine.step.world.engine.registry.record? classId =
          some (Registry.made (scripted name constructor methods finalizer)
            machine.world.engine.heap.nextId)
    else
      machine.step.world = machine.world ∧
        ∃ failure, machine.step.agenda = .answer (.failed failure) :: .finish label :: rest

def InstallsByRoll (machine : Machine) (roll : Roll) : Prop :=
  ∀ label name config keep rest,
    machine.agenda = .perform (.act label (.bridge (.install name config)) keep) :: rest →
    if (roll.enter machine.world.engine.heap.nextId .reserve).Opens roll.next then
      (∃ settled, machine.step.agenda = settled ++
          .answer (.number (some (roll.next.number.toNat : Int))) :: .finish label :: rest) ∧
        machine.step.world.engine.registry.record? roll.next =
          some (Registry.made machine.world.nextBridge.definition
            machine.world.engine.heap.nextId)
    else
      machine.step.world = machine.world.reserveClass ∧
        ∃ failure, machine.step.agenda = .answer (.failed failure) :: .finish label :: rest

/-- The class of an instance was defined, and the finalizer that it was defined with is the one
that runs. -/
def FinalizesByRoll (machine : Machine) (roll : Roll) : Prop :=
  ∀ id classId, machine.world.classOf? (.object id) = some classId →
    ∃ definition proto, roll.definition? classId = some (definition, proto) ∧
      machine.world.runFinalizer id =
        match definition.finalizer with
        | .signal bridge => machine.world.finalizeSignal bridge (.object id)
        | .script body => (machine.world, [.enter body (.object id) [] .finalize])

structure Registered (machine : Machine) (roll : Roll) : Prop where
  /-- Ids were handed out in their order. -/
  order : roll.handed.reverse = (List.range roll.handed.length).map Roll.numbered
  /-- And the one that comes next is handed out next. -/
  reserves : ∀ label keep rest,
    machine.agenda = .perform (.act label (.classes .reserve) keep) :: rest →
    machine.step.agenda =
      .answer (.number (some (roll.next.number.toNat : Int))) :: .finish label :: rest
  defines : machine.DefinesByRoll roll
  installs : machine.InstallsByRoll roll
  /-- No class is defined twice. -/
  once : (roll.defined.map Prod.fst).Nodup
  /-- Each class is what it was defined by. -/
  records : ∀ classId, machine.world.engine.registry.record? classId =
    (roll.definition? classId).map fun entry => Registry.made entry.1 entry.2
  /-- And it stays so. -/
  lasting : ∀ classId record, machine.world.engine.registry.record? classId = some record →
    ∀ later, Relation.ReflTransGen Next machine later → later.world.engine.running = true →
      later.world.engine.registry.record? classId = some record
  /-- A name means the class that was defined last under it. -/
  names : ∀ name, machine.world.engine.registry.idOf? name = roll.meaning? name
  /-- Of several methods with one name the last one counts. -/
  methods : ∀ classId name, machine.world.method? classId name =
    (roll.definition? classId).bind fun entry =>
      (entry.1.methods.reverse.find? fun method => method.1 = name).map Prod.snd
  instances : machine.FinalizesByRoll roll

section Registered

variable {machine : Machine} {roll : Roll}

theorem defines_of_matches (matched : machine.world.engine.registry.Matches roll)
    (running : machine.world.engine.running = true) : machine.DefinesByRoll roll := by
  intro label classId name constructor methods finalizer rest shape
  have stepped : machine.step.world =
        (machine.world.defineScripted classId name constructor methods finalizer).1 ∧
      machine.step.agenda =
        (machine.world.defineScripted classId name constructor methods finalizer).2 ++
          .finish label :: rest := by
    rw [step_of_cons shape]
    exact ⟨rfl, rfl⟩
  rw [stepped.1, stepped.2]
  unfold World.defineScripted
  dsimp only
  rw [if_pos running]
  cases checked : machine.world.engine.registry.checkOpen classId with
  | ok =>
      rw [if_pos (matched.open_iff.1 checked)]
      refine ⟨rfl, ?_⟩
      exact (Registry.record_define checked _ _ classId).trans (if_pos rfl)
  | error failure =>
      have closed : ¬roll.Opens classId := by
        intro opens
        rw [matched.open_iff.2 opens] at checked
        cases checked
      rw [if_neg closed]
      exact ⟨rfl, failure, rfl⟩

theorem installs_of_matches (matched : machine.world.engine.registry.Matches roll)
    (running : machine.world.engine.running = true) : machine.InstallsByRoll roll := by
  intro label name config keep rest shape
  have reserved := matched.reserve machine.world.engine.heap.nextId
  have performed : machine.world.perform machine.read (.bridge (.install name config)) =
      machine.world.installBridge name config := by
    simp [World.perform, running, World.performRunning, World.performBridge]
  rw [step_act_eq shape rfl, performed, ← matched.next]
  unfold World.installBridge
  dsimp only
  cases checked : machine.world.reserveClass.engine.registry.checkOpen
      machine.world.engine.registry.nextId with
  | ok =>
      rw [if_pos (reserved.open_iff.1 checked)]
      refine ⟨⟨_, List.append_assoc _ _ _⟩, ?_⟩
      exact (Registry.record_define checked _ _ _).trans (if_pos rfl)
  | error failure =>
      have closed : ¬(roll.enter machine.world.engine.heap.nextId .reserve).Opens
          machine.world.engine.registry.nextId := by
        intro opens
        rw [show machine.world.reserveClass.engine.registry.checkOpen _ = _ from
          reserved.open_iff.2 opens] at checked
        cases checked
      rw [if_neg closed]
      exact ⟨rfl, failure, rfl⟩

theorem finalizes_of_matches (matched : machine.world.engine.registry.Matches roll)
    (classed : machine.world.Classed) : machine.FinalizesByRoll roll := by
  intro id classId ofClass
  obtain ⟨record, found⟩ := classed _ _ ofClass
  have listed := found
  rw [matched.records] at listed
  obtain ⟨⟨definition, proto⟩, defined, made⟩ := Option.map_eq_some_iff.1 listed
  refine ⟨definition, proto, defined, ?_⟩
  subst made
  unfold World.runFinalizer
  rw [ofClass, Option.bind_some, found]
  rfl

/-- While its engine runs, every machine that comes about has a roll, and whatever its roll, the
registry is as the roll has it. -/
theorem registered_of_attained (attained : machine.Attained)
    (running : machine.world.engine.running = true) :
    (∃ roll, Enrolled machine roll) ∧ ∀ roll, Enrolled machine roll → machine.Registered roll := by
  refine ⟨attained.enrolled, fun roll enrolled => ?_⟩
  have matched := enrolled.matches running
  constructor
  · rw [matched.length]
    exact matched.order
  · intro label keep rest shape
    have performed : machine.world.perform machine.read (.classes .reserve) =
        machine.world.reserveClass.done
          (.number (some (machine.world.engine.registry.nextId.number.toNat : Int))) := by
      simp [World.perform, running, World.performRunning, World.performClass]
    rw [step_act_eq shape rfl, performed, matched.next]
    rfl
  · exact defines_of_matches matched running
  · exact installs_of_matches matched running
  · exact matched.once
  · exact matched.records
  · intro classId record found later nexts runs
    exact attained.record found nexts runs
  · exact matched.names
  · intro classId name
    unfold World.method?
    rw [matched.records]
    cases roll.definition? classId with
    | none => rfl
    | some entry => exact NameMap.find_of_list entry.1.methods name
  · exact finalizes_of_matches matched (enrolled.classed running)

/-- A class is about to be defined once more. -/
def secondDefinition : Machine :=
  (runAll 20 (start .immediate)
    [.act "reserve" (.classes .reserve) none,
      .define "define" ⟨0⟩ "Holder" default [("get", default), ("get", default)] default,
      .act "make" (.classes (.instantiate (.literal .undefined) ⟨0⟩)) (some "holder")]).submit
    (.define "again" ⟨0⟩ "Other" default [] default)

theorem registered_of_second_definition :
    secondDefinition.step.agenda = [.answer (.failed .classDefined), .finish "again"] ∧
      ∃ roll, Enrolled secondDefinition roll ∧ secondDefinition.Registered roll ∧
        ¬roll.Opens ⟨0⟩ ∧ roll.meaning? "Holder" = some ⟨0⟩ ∧ roll.meaning? "Other" = none := by
  have attained : secondDefinition.Attained :=
    ((attained_start .immediate).run_all 20 (by decide)).submit rfl _
  obtain ⟨⟨roll, enrolled⟩, all⟩ := registered_of_attained attained rfl
  have registered := all roll enrolled
  refine ⟨rfl, roll, enrolled, registered, ?_, ?_, ?_⟩
  · intro opens
    have accepted := registered.defines "again" ⟨0⟩ "Other" default [] default [] rfl
    rw [if_pos opens] at accepted
    cases accepted.1
  · exact (registered.names "Holder").symm.trans rfl
  · exact (registered.names "Other").symm.trans rfl

end Registered

end Machine

end ScriptSignal
