import Mathlib.Data.Set.Function
import ScriptSignal.Proofs.Binding

/-!
# Handles and states agree at every step

Between the making of a handle and the making of its state a reference is given back. At that
point nothing else can happen: the reference is not the last one, so no finalizer runs in
between. An object on its way out of the heap was unbound before. With these two facts about
the agenda the agreement of slots and tables goes through every step of a machine.
-/

namespace ScriptSignal

set_option autoImplicit false

def Task.Binds : Task → Prop
  | .bind _ _ _ _ => True
  | _ => False

theorem Task.Ordinary.not_binds {task : Task} (ordinary : task.Ordinary) : ¬task.Binds := by
  cases task with
  | bind bridge route handle link => exact ordinary.elim
  | _ => exact fun binds => binds

namespace World

variable {world before after : World}

/-- At most one construction is half done, and then it is next, perhaps after a reference that
is not the last one. -/
inductive Poised (world : World) : List Task → Prop
  | idle {agenda : List Task} (free : ∀ task ∈ agenda, ¬task.Binds) : Poised world agenda
  | bind {id : BridgeId} {route : Route} {handle : Value} {link : Option StrongRef}
      {rest : List Task} (awaits : world.Awaits id handle)
      (spared : ∀ object, .remove object ∈ rest → handle ≠ .object object)
      (free : ∀ task ∈ rest, ¬task.Binds) :
      Poised world (.bind id route handle link :: rest)
  | release {proto : Value} {id : BridgeId} {route : Route} {handle : Value}
      {link : Option StrongRef} {rest : List Task}
      (counted : ∀ object, world.object? proto = some object → 2 ≤ object.refCount)
      (awaits : world.Awaits id handle)
      (spared : ∀ object, .remove object ∈ rest → handle ≠ .object object)
      (free : ∀ task ∈ rest, ¬task.Binds) :
      Poised world (.release proto :: .bind id route handle link :: rest)

theorem Poised.append_idle {rest tasks : List Task} (first : ∀ task ∈ tasks, ¬task.Binds)
    (free : ∀ task ∈ rest, ¬task.Binds) : world.Poised (tasks ++ rest) := by
  refine .idle ?_
  intro task member
  rcases List.mem_append.1 member with new | old
  · exact first task new
  · exact free task old

theorem Poised.awaits {id : BridgeId} {route : Route} {handle : Value} {link : Option StrongRef}
    {rest : List Task} (poised : world.Poised (.bind id route handle link :: rest)) :
    world.Awaits id handle := by
  cases poised with
  | idle free => exact absurd trivial (free _ List.mem_cons_self)
  | bind awaits spared free => exact awaits

theorem Awaits.of_changes {id : BridgeId} {handle : Value} (awaits : before.Awaits id handle)
    (changes : Changes before after) : after.Awaits id handle := by
  obtain ⟨bridge, found, fresh⟩ := awaits
  obtain ⟨later, foundLater, sameClass, -⟩ := changes.persists.bridges id bridge found
  exact ⟨later, foundLater, by rw [sameClass]; exact changes.kind fresh⟩

/-- Giving back a reference that is not the last one leaves nothing to do. -/
theorem release_of_counted {proto : Value}
    (counted : ∀ object, world.object? proto = some object → 2 ≤ object.refCount) :
    (world.release proto).2 = [] := by
  cases proto with
  | object id =>
      cases found : world.engine.heap.get? id with
      | none => simp [release, releaseObject, found]
      | some object =>
          have many := counted object found
          obtain ⟨count, references⟩ : ∃ count, object.refCount = count + 2 :=
            ⟨object.refCount - 2, by omega⟩
          simp [release, releaseObject, found, references]
  | _ => rfl

theorem object_allocate {kind : ObjectKind} {proto : Option ObjectId} {value : Value}
    (known : value.Within world.size) :
    (world.allocate kind proto).object? value = world.object? value := by
  cases value with
  | object id =>
      have apart : id ≠ world.engine.heap.nextId := by
        rintro rfl
        exact Nat.lt_irrefl _ known
      exact Heap.get_alloc_other _ kind proto apart
  | _ => rfl

/-- The prototype of a new instance has the reference of its new object on top. -/
theorem counted_allocate_instance {proto : Value} {classId : ClassId}
    (known : proto.Within world.size)
    (counted : ∀ object, world.object? proto = some object → 0 < object.refCount) :
    ∀ object, (world.allocateInstance proto classId).object? proto = some object →
      2 ≤ object.refCount := by
  intro object found
  unfold allocateInstance at found
  split at found
  · rename_i alive
    rw [object_allocate (known.mono (changes_duplicate world proto).persists.size)] at found
    obtain ⟨id, old, rfl, held⟩ := object_of_alive alive
    have first := counted old held
    simp only [duplicate, held] at found
    change (world.engine.heap.put id _).get? id = some object at found
    rw [Heap.get_put_same held] at found
    cases found
    exact Nat.succ_le_succ first
  · rename_i dead
    rw [object_allocate known] at found
    simp [isAlive, found] at dead

theorem kind_next_allocate_instance (proto : Value) (classId : ClassId) :
    (world.allocateInstance proto classId).kind? world.nextValue =
      some (.native classId none) := by
  unfold allocateInstance
  split
  · have same : (world.duplicate proto).nextValue = world.nextValue := by
      cases proto with
      | object id =>
          cases found : world.engine.heap.get? id with
          | none => simp [duplicate, found, nextValue, emit]
          | some object =>
              simp [duplicate, found, nextValue, putObject, Heap.put, Heap.nextId]
      | _ => rfl
    rw [kind_allocate, same]
    simp
  · rw [kind_allocate]
    simp

end World

namespace Machine

variable {machine : Machine} {classId : ClassId}

structure Orderly (machine : Machine) (classId : ClassId) : Prop where
  grounded : machine.Grounded
  bound : machine.world.Bound classId
  poised : machine.world.Poised machine.agenda
  unbound : ∀ id bridge, machine.world.Serves classId id bridge →
    ∀ object, .remove object ∈ machine.agenda →
      machine.world.slotKey? (.object object) classId = none

theorem orderly_start (setting : Setting) (classId : ClassId) :
    (start setting).Orderly classId where
  grounded := grounded_start setting
  bound := World.bound_start setting classId
  poised := .idle (by simp [start])
  unbound := by
    intro id bridge _ object member
    simp [start] at member

theorem Orderly.submit (orderly : machine.Orderly classId) (idle : machine.agenda = [])
    {step : Step} (known : step.Known machine.world) :
    (machine.submit step).Orderly classId := by
  have agenda : (machine.submit step).agenda = [.perform step] := by
    simp [Machine.submit, idle]
  refine ⟨orderly.grounded.submit known, orderly.bound, ?_, ?_⟩
  · rw [agenda]
    exact .idle (by simp [Task.Binds])
  · intro id bridge _ object member
    rw [agenda] at member
    simp at member

section Step

variable {rest : List Task}

/-- The half-done construction stays half done while a reference is given back. -/
theorem Orderly.step_release {proto : Value} {id : BridgeId} {route : Route} {handle : Value}
    {link : Option StrongRef} (orderly : machine.Orderly classId)
    (shape : machine.agenda = .release proto :: .bind id route handle link :: rest)
    (counted : ∀ object, machine.world.object? proto = some object → 2 ≤ object.refCount)
    (awaits : machine.world.Awaits id handle)
    (spared : ∀ object, .remove object ∈ rest → handle ≠ .object object)
    (free : ∀ task ∈ rest, ¬task.Binds)
    (running : machine.step.world.engine.running = true) : machine.step.Orderly classId := by
  have grounded := orderly.grounded.step running
  have changes := (World.plain_release orderly.grounded.world proto).changes
  have world : machine.step.world = (machine.world.release proto).1 := by
    rw [step_of_cons shape]
    rfl
  have agenda : machine.step.agenda = .bind id route handle link :: rest := by
    rw [step_of_cons shape]
    simp [carryOut, World.release_of_counted counted]
  rw [← world] at changes
  refine ⟨grounded, changes.bound orderly.bound, ?_, ?_⟩
  · rw [agenda]
    exact .bind (awaits.of_changes changes) spared free
  · intro other later serves object member
    rw [agenda] at member
    refine World.unbound_after orderly.bound changes.persists changes.origin
      (.inl (changes.slot_key _ _)) ?_ serves
    intro earlier bridge servesEarlier
    exact orderly.unbound earlier bridge servesEarlier object (by simp [shape, member])

theorem not_remove_of_ordinary {tasks : List Task} (ordinary : ∀ task ∈ tasks, task.Ordinary)
    (object : ObjectId) : .remove object ∉ tasks :=
  fun member => ordinary _ member

theorem Orderly.of_effect (orderly : machine.Orderly classId) {after : Machine}
    {tasks : List Task} (waiting : ∀ task ∈ rest, task ∈ machine.agenda)
    (free : ∀ task ∈ rest, ¬task.Binds) (effect : World.Effect machine.world after.world)
    (agenda : after.agenda = tasks ++ rest) (ordinary : ∀ task ∈ tasks, task.Ordinary)
    (running : after.world.engine.running = true) (grounded : after.Grounded) :
    after.Orderly classId := by
  refine ⟨grounded, effect.bound orderly.bound running, ?_, ?_⟩
  · rw [agenda]
    exact .append_idle (fun task member => (ordinary task member).not_binds) free
  · intro id later serves object member
    rw [agenda] at member
    have old : .remove object ∈ rest := by
      rcases List.mem_append.1 member with new | old
      · exact absurd new (not_remove_of_ordinary ordinary object)
      · exact old
    refine World.unbound_after orderly.bound (effect.persists running) (effect.origin running)
      (effect.slot_key running _ _) ?_ serves
    intro earlier bridge servesEarlier
    exact orderly.unbound earlier bridge servesEarlier object (waiting _ old)

theorem slot_key_run_finalizer {world : World} (bound : world.Bound classId)
    {id : BridgeId} {bridge : Bridge} (serves : world.Serves classId id bridge)
    (object : ObjectId) :
    (world.runFinalizer object).1.slotKey? (.object object) classId = none := by
  cases found : world.slotKey? (.object object) classId with
  | none =>
      unfold World.runFinalizer
      split
      · exact found
      · split
        · rcases World.slot_key_finalize_signal world _ (.object object) (.object object) classId
            with same | gone
          · rw [same, found]
          · exact gone
        · exact found
  | some key =>
      obtain ⟨record, held, made⟩ := bound.installed id bridge serves.found serves.installed
      rw [serves.ofClass] at held
      have finalizer : world.runFinalizer object = world.finalizeSignal id (.object object) := by
        simp only [World.runFinalizer, World.class_of_slot_key found, Option.bind_some, held]
        rw [made]
        rfl
      have reached : world.boundKey id (.object object) = .ok key :=
        World.bound_key_eq_ok.2 ⟨bridge, serves.found, by rw [serves.ofClass]; exact found⟩
      have slot : world.slotKey? (.object object) bridge.classId = some key := by
        rw [serves.ofClass]
        exact found
      rw [finalizer]
      rcases World.finalize_signal_cases world id (.object object) with
        ⟨-, unreached⟩ | ⟨other, state, -, -, same⟩ | ⟨other, -, -, same⟩
      · exact absurd reached (unreached key)
      · rw [same, World.slot_key_emit, World.slot_key_modify_states,
          World.slot_key_unbind serves.found slot]
        simp [serves.ofClass]
      · rw [same, World.slot_key_emit, World.slot_key_unbind serves.found slot]
        simp [serves.ofClass]

theorem Orderly.of_reclaim {after : Machine} {id : ObjectId}
    (orderly : machine.Orderly classId) (waiting : ∀ task ∈ rest, task ∈ machine.agenda)
    (free : ∀ task ∈ rest, ¬task.Binds)
    (world : after.world = (machine.world.runFinalizer id).1)
    (agenda : after.agenda = (machine.world.runFinalizer id).2 ++ .remove id :: rest)
    (running : after.world.engine.running = true) (grounded : after.Grounded) :
    after.Orderly classId := by
  have regular := World.regular_run_finalizer orderly.grounded.world id
  have effect := regular.effect
  rw [← world] at effect
  refine ⟨grounded, effect.bound orderly.bound running, ?_, ?_⟩
  · rw [agenda]
    refine .append_idle (fun task member => (regular.ordinary task member).not_binds) ?_
    intro task member
    rcases List.mem_cons.1 member with rfl | old
    · exact fun binds => binds
    · exact free task old
  · intro other later serves object member
    rw [agenda] at member
    have old : object = id ∨ .remove object ∈ rest := by
      rcases List.mem_append.1 member with new | old
      · exact absurd new (not_remove_of_ordinary regular.ordinary object)
      · rcases List.mem_cons.1 old with same | old
        · cases same
          exact .inl rfl
        · exact .inr old
    rcases old with rfl | old
    · rcases effect.origin running other later serves.found serves.installed with
        ⟨bridge, found⟩ | missing
      · rw [world]
        exact slot_key_run_finalizer orderly.bound
          (serves.before (effect.persists running) found) object
      · rw [serves.ofClass] at missing
        rcases effect.slot_key running (.object object) classId with same | gone
        · rw [same]
          exact orderly.bound.slot_key_of_undefined missing _
        · exact gone
    · refine World.unbound_after orderly.bound (effect.persists running) (effect.origin running)
        (effect.slot_key running _ _) ?_ serves
      intro earlier bridge servesEarlier
      exact orderly.unbound earlier bridge servesEarlier object (waiting _ old)

theorem Orderly.of_remove {after : Machine} {id : ObjectId}
    (orderly : machine.Orderly classId) (shape : machine.agenda = .remove id :: rest)
    (free : ∀ task ∈ rest, ¬task.Binds)
    (world : after.world = (machine.world.removeObject id).1)
    (agenda : after.agenda = (machine.world.removeObject id).2 ++ rest)
    (grounded : after.Grounded) : after.Orderly classId := by
  have persists := World.persists_remove_object machine.world id
  have origin : World.Origin machine.world (machine.world.removeObject id).1 :=
    .of_old fun other later found => ⟨later, by rwa [World.bridge_remove_object] at found⟩
  rw [← world] at persists origin
  refine ⟨grounded, ?_, ?_, ?_⟩
  · rw [world]
    refine World.bound_remove_object orderly.bound ?_
    intro other bridge serves
    exact orderly.unbound other bridge serves id (by simp [shape])
  · rw [agenda]
    refine .append_idle ?_ free
    intro task member
    obtain ⟨value, rfl⟩ := releases_of_remove_object _ _ task member
    exact fun binds => binds
  · intro other later serves object member
    rw [agenda] at member
    have old : .remove object ∈ rest := by
      rcases List.mem_append.1 member with new | old
      · obtain ⟨value, same⟩ := releases_of_remove_object _ _ _ new
        cases same
      · exact old
    have keys : after.world.slotKey? (.object object) classId =
        machine.world.slotKey? (.object object) classId ∨
        after.world.slotKey? (.object object) classId = none := by
      rw [world, World.slot_key_remove_object]
      split
      · exact .inr rfl
      · exact .inl rfl
    refine World.unbound_after orderly.bound persists origin keys ?_ serves
    intro earlier bridge servesEarlier
    exact orderly.unbound earlier bridge servesEarlier object (by simp [shape, old])

theorem Orderly.of_bind {after : Machine} {id : BridgeId} {route : Route} {handle : Value}
    {link : Option StrongRef} (orderly : machine.Orderly classId)
    (shape : machine.agenda = .bind id route handle link :: rest)
    (awaits : machine.world.Awaits id handle)
    (spared : ∀ object, .remove object ∈ rest → handle ≠ .object object)
    (free : ∀ task ∈ rest, ¬task.Binds)
    (world : after.world = (machine.world.bindSignal id route handle link).1)
    (agenda : after.agenda = (machine.world.bindSignal id route handle link).2 ++ rest)
    (grounded : after.Grounded) : after.Orderly classId := by
  have persists := World.persists_bind_signal machine.world id route handle link
  obtain ⟨bridge, found, fresh⟩ := awaits
  have tasks : (machine.world.bindSignal id route handle link).2 =
      [.answer (route.reply (.ok handle))] := by
    rw [World.bind_signal_eq found]
  have origin : World.Origin machine.world (machine.world.bindSignal id route handle link).1 := by
    apply World.Origin.of_old
    intro other later foundLater
    rw [World.bridge_bind_signal found] at foundLater
    by_cases same : other = id
    · subst same
      exact ⟨bridge, found⟩
    · rw [if_neg same] at foundLater
      exact ⟨later, foundLater⟩
  rw [← world] at persists origin
  refine ⟨grounded, ?_, ?_, ?_⟩
  · rw [world]
    exact World.bound_bind_signal orderly.bound ⟨bridge, found, fresh⟩ route link
  · rw [agenda, tasks]
    exact .append_idle (by simp [Task.Binds]) free
  · intro other later serves object member
    rw [agenda, tasks] at member
    have old : .remove object ∈ rest := by simpa using member
    have keys : after.world.slotKey? (.object object) classId =
        machine.world.slotKey? (.object object) classId := by
      rw [world, World.slot_key_bind_signal found fresh]
      exact if_neg fun both => spared object old both.1.symm
    refine World.unbound_after orderly.bound persists origin (.inl keys) ?_ serves
    intro earlier servesBridge servesEarlier
    exact orderly.unbound earlier servesBridge servesEarlier object (by simp [shape, old])

theorem Orderly.of_slot {after : Machine} {value : Value} {ofClass : ClassId}
    {key : Option Key} {tasks : List Task} (orderly : machine.Orderly classId)
    (waiting : ∀ task ∈ rest, task ∈ machine.agenda) (free : ∀ task ∈ rest, ¬task.Binds)
    (spared : ofClass ≠ classId)
    (world : after.world = machine.world.setSlot value ofClass key)
    (agenda : after.agenda = tasks ++ rest) (ordinary : ∀ task ∈ tasks, task.Ordinary)
    (grounded : after.Grounded) : after.Orderly classId := by
  have persists := World.persists_set_slot machine.world value ofClass key
  have origin : World.Origin machine.world (machine.world.setSlot value ofClass key) :=
    .of_old fun other later found => ⟨later, by rwa [World.bridge_set_slot] at found⟩
  rw [← world] at persists origin
  refine ⟨grounded, ?_, ?_, ?_⟩
  · rw [world]
    exact World.bound_set_slot orderly.bound spared value key
  · rw [agenda]
    exact .append_idle (fun task member => (ordinary task member).not_binds) free
  · intro other later serves object member
    rw [agenda] at member
    have old : .remove object ∈ rest := by
      rcases List.mem_append.1 member with new | old
      · exact absurd new (not_remove_of_ordinary ordinary object)
      · exact old
    have keys : after.world.slotKey? (.object object) classId =
        machine.world.slotKey? (.object object) classId := by
      rw [world, World.slot_key_set_slot]
      exact if_neg fun all => spared all.2.1.symm
    refine World.unbound_after orderly.bound persists origin (.inl keys) ?_ serves
    intro earlier bridge servesEarlier
    exact orderly.unbound earlier bridge servesEarlier object (waiting _ old)

theorem Orderly.of_construct {after : Machine} {world : World} {id : BridgeId} {route : Route}
    {proto : Value} {link : Option StrongRef} {ofClass : ClassId} {more : List Task}
    (orderly : machine.Orderly classId) (waiting : ∀ task ∈ rest, task ∈ machine.agenda)
    (free : ∀ task ∈ rest, ¬task.Binds) (changes : World.Changes machine.world world)
    (known : proto.Within world.size)
    (counted : ∀ object, world.object? proto = some object → 0 < object.refCount)
    (ofBridge : (world.bridge? id).map Bridge.classId = some ofClass)
    (defined : world.isDefined ofClass = true) (ordinary : ∀ task ∈ more, task.Ordinary)
    (made : after.world = world.allocateInstance proto ofClass)
    (agenda : after.agenda =
      .release proto :: .bind id route world.nextValue link :: (more ++ rest))
    (grounded : after.Grounded) : after.Orderly classId := by
  have allocated := @World.changes_allocate_instance world proto ofClass defined
  rw [← made] at allocated
  have all : World.Changes machine.world after.world := changes.trans allocated
  obtain ⟨bridge, found, sameClass⟩ := Option.map_eq_some_iff.1 ofBridge
  obtain ⟨later, foundLater, laterClass, -⟩ := allocated.persists.bridges id bridge found
  have awaits : after.world.Awaits id world.nextValue := by
    refine ⟨later, foundLater, ?_⟩
    rw [laterClass, sameClass, made]
    exact World.kind_next_allocate_instance proto ofClass
  have removes : ∀ object, .remove object ∈ more ++ rest → .remove object ∈ rest := by
    intro object member
    rcases List.mem_append.1 member with new | old
    · exact absurd new (not_remove_of_ordinary ordinary object)
    · exact old
  refine ⟨grounded, all.bound orderly.bound, ?_, ?_⟩
  · rw [agenda]
    refine .release ?_ awaits ?_ ?_
    · rw [made]
      exact World.counted_allocate_instance known counted
    · intro object member same
      have inside : object.index < machine.world.size :=
        orderly.grounded.agenda _ (waiting _ (removes object member))
      have beyond : object.index = world.size := by
        cases same
        rfl
      have grows := changes.persists.size
      omega
    · intro task member
      rcases List.mem_append.1 member with new | old
      · exact (ordinary task new).not_binds
      · exact free task old
  · intro other servedLater serves object member
    rw [agenda] at member
    have old : .remove object ∈ rest := by
      simp only [List.mem_cons, reduceCtorEq, false_or] at member
      exact removes object member
    refine World.unbound_after orderly.bound all.persists all.origin
      (.inl (all.slot_key _ _)) ?_ serves
    intro earlier servesBridge servesEarlier
    exact orderly.unbound earlier servesBridge servesEarlier object (waiting _ old)

theorem Orderly.step (orderly : machine.Orderly classId)
    (spared : machine.slotWritten? ≠ some classId)
    (running : machine.step.world.engine.running = true) : machine.step.Orderly classId := by
  cases shape : machine.agenda with
  | nil =>
      rw [step_of_nil shape]
      exact orderly
  | cons task rest =>
      have grounded := orderly.grounded.step running
      have waiting : ∀ other ∈ rest, other ∈ machine.agenda :=
        fun other member => by simp [shape, member]
      have poised := orderly.poised
      rw [shape] at poised
      -- a half-done construction is either next, or waits for one reference to be given back
      by_cases half : ∃ proto id route handle link more, task = .release proto ∧
          rest = .bind id route handle link :: more
      · obtain ⟨proto, id, route, handle, link, more, rfl, rfl⟩ := half
        cases poised with
        | idle free => exact absurd trivial (free (.bind id route handle link) (by simp))
        | release counted awaits spared free =>
            exact orderly.step_release shape counted awaits spared free running
      · have free : ∀ other ∈ rest, ¬other.Binds := by
          cases poised with
          | idle free => exact fun other member => free other (List.mem_cons_of_mem _ member)
          | bind awaits spared free => exact free
          | release counted awaits spared free =>
              exact absurd ⟨_, _, _, _, _, _, rfl, rfl⟩ half
        cases orderly.grounded.stepped shape with
        | lawful lawful world agenda =>
            cases lawful with
            | regular regular =>
                refine orderly.of_effect waiting free ?_ agenda regular.ordinary running grounded
                rw [world]
                exact regular.effect
            | construct changes known counted ofBridge defined ordinary within =>
                exact orderly.of_construct waiting free changes known counted ofBridge defined
                  ordinary world agenda grounded
        | reclaim found dead world agenda =>
            exact orderly.of_reclaim waiting free world agenda running grounded
        | remove world agenda => exact orderly.of_remove shape free world agenda grounded
        | bind world agenda =>
            cases poised with
            | idle busy => exact absurd trivial (busy _ List.mem_cons_self)
            | bind awaits spared free =>
                exact orderly.of_bind shape awaits spared free world agenda grounded
        | @slot _ label operand ofClass key keep world agenda =>
            refine orderly.of_slot waiting free ?_ world
              (by exact agenda : _ = [.answer .nothing, .finish label] ++ rest)
              (by simp [Task.Ordinary]) grounded
            rintro rfl
            exact spared (by simp [slotWritten?, shape])

end Step

/-- Every machine of a run is orderly as long as there is an engine. -/
theorem Reachable.orderly (reached : Reachable classId machine)
    (running : machine.world.engine.running = true) : machine.Orderly classId := by
  induction reached with
  | start setting => exact orderly_start setting classId
  | submit reached idle known induction => exact (induction running).submit idle known
  | step reached before spared induction => exact (induction before).step spared running

end Machine

namespace World

/-- A live instance of a class whose slot is bound, with the word in the slot. -/
def BoundTo (world : World) (classId : ClassId) (id : ObjectId) (bits : UInt64) : Prop :=
  ∃ object, world.engine.heap.get? id = some object ∧ object.kind = .native classId (some bits)

def slotKey (world : World) (classId : ClassId) (id : ObjectId) : Key :=
  (world.slotKey? (.object id) classId).getD default

/-- The live instances of a class whose slot is bound, in the order of their allocation. -/
def boundInstances (world : World) (classId : ClassId) : List ObjectId :=
  ((List.range world.size).map ObjectId.mk).filter fun id =>
    (world.slotKey? (.object id) classId).isSome

/-- What a bridge can rely on: its handles and its states belong together. -/
structure OneHandleOneState (world : World) (classId : ClassId) (id : BridgeId) : Prop where
  /-- Decoding the slot takes the bound live instances to the live keys, one to one. -/
  bijection :
    Set.BijOn (world.slotKey classId) { handle | ∃ bits, world.BoundTo classId handle bits }
      { key | ∃ state, world.state? id key = some state }
  counted : world.liveStates id = (world.boundInstances classId).length
  isBound : ∀ value, world.isBound id value = true ↔
    ∃ handle bits, value = .object handle ∧ world.BoundTo classId handle bits
  /-- After the slot was read, the table is not looked up in vain. -/
  reached : ∀ handle key, world.boundKey id handle = .ok key →
    ∃ state, world.state? id key = some state
  /-- A finalization reports one event, and never a stale key. -/
  fresh : ∀ handle, ∃ event, (world.finalizeSignal id handle).1.events = world.events.push event ∧
    ∀ key, event ≠ .staleFinalize key

variable {world : World} {classId : ClassId}

theorem slot_key_object_eq_some_iff {id : ObjectId} {key : Key} :
    world.slotKey? (.object id) classId = some key ↔
      ∃ bits, world.BoundTo classId id bits ∧ Key.ofBits bits = key := by
  rw [slot_key_eq_some_iff]
  simp only [kind_object, Option.map_eq_some_iff, BoundTo]

theorem mem_bound_instances {id : ObjectId} :
    id ∈ world.boundInstances classId ↔ ∃ bits, world.BoundTo classId id bits := by
  obtain ⟨index⟩ := id
  simp only [boundInstances, List.mem_filter, List.mem_map, List.mem_range, ObjectId.mk.injEq,
    exists_eq_right, Option.isSome_iff_exists, slot_key_object_eq_some_iff]
  constructor
  · rintro ⟨-, key, bits, bound, -⟩
    exact ⟨bits, bound⟩
  · rintro ⟨bits, object, found, native⟩
    exact ⟨within_of_get found, _, bits, ⟨object, found, native⟩, rfl⟩

theorem nodup_bound_instances : (world.boundInstances classId).Nodup := by
  apply List.Nodup.filter
  apply List.Nodup.map
  · intro first second same
    exact ObjectId.mk.inj same
  · exact List.nodup_range

theorem is_bound_iff {id : BridgeId} {value : Value} :
    world.isBound id value = true ↔
      ∃ key, world.boundKey id value = .ok key ∧ ∃ state, world.state? id key = some state := by
  unfold isBound boundState
  cases bound : world.boundKey id value with
  | error failure => simp [Except.isOk, Except.toBool]
  | ok key =>
      cases held : world.state? id key with
      | none => simp [held, Except.isOk, Except.toBool]
      | some state => simp [held, Except.isOk, Except.toBool]

theorem handle_of_bound_key {id : BridgeId} {bridge : Bridge}
    (serves : world.Serves classId id bridge) {value : Value} {key : Key}
    (bound : world.boundKey id value = .ok key) :
    ∃ handle, value = .object handle ∧
      ∃ bits, world.BoundTo classId handle bits ∧ Key.ofBits bits = key := by
  obtain ⟨other, found, slot⟩ := bound_key_eq_ok.1 bound
  cases serves.found.symm.trans found
  rw [serves.ofClass] at slot
  cases value with
  | object handle => exact ⟨handle, rfl, slot_key_object_eq_some_iff.1 slot⟩
  | _ => cases slot

theorem events_bind_handle (id : BridgeId) (handle : Value) (key : Option Key) :
    (world.bindHandle id handle key).events = world.events := by
  rcases bind_handle_cases world id handle key with same | ⟨bridge, -, same⟩
  · rw [same]
  · rw [same]
    rcases set_slot_cases world handle bridge.classId key with
      ⟨kept, -⟩ | ⟨place, object, slot, -, -, -, kept⟩
    · rw [kept]
    · rw [kept]
      rfl

theorem decoded_of_bound {handle : ObjectId} (bound : ∃ bits, world.BoundTo classId handle bits) :
    world.slotKey? (.object handle) classId = some (world.slotKey classId handle) := by
  obtain ⟨bits, bound⟩ := bound
  have found := slot_key_object_eq_some_iff.2 ⟨bits, bound, rfl⟩
  simp [slotKey, found]

theorem contains_iff_state {id : BridgeId} {bridge : Bridge}
    (found : world.bridge? id = some bridge) (key : Key) :
    bridge.states.contains key = true ↔ ∃ state, world.state? id key = some state := by
  rw [contains_of_state found, Option.isSome_iff_exists]

theorem OneToOne.bijection {id : BridgeId} {bridge : Bridge}
    (agree : world.OneToOne classId bridge.states) (found : world.bridge? id = some bridge) :
    Set.BijOn (world.slotKey classId) { handle | ∃ bits, world.BoundTo classId handle bits }
      { key | ∃ state, world.state? id key = some state } := by
  refine ⟨?_, ?_, ?_⟩
  · intro handle bound
    exact (contains_iff_state found _).1 (agree.reaches _ _ (decoded_of_bound bound))
  · intro first boundFirst second boundSecond same
    have one := decoded_of_bound boundFirst
    rw [same] at one
    exact Value.object.inj (agree.apart _ _ _ one (decoded_of_bound boundSecond))
  · intro key present
    obtain ⟨handle, slot⟩ := agree.covered key ((contains_iff_state found key).2 present)
    cases handle with
    | object handle =>
        obtain ⟨bits, bound, -⟩ := slot_key_object_eq_some_iff.1 slot
        exact ⟨handle, ⟨bits, bound⟩, by simp [slotKey, slot]⟩
    | _ => cases slot

/-- The keys in the slots of the bound instances are the keys of the table, in some order. -/
theorem Serves.perm_keys {id : BridgeId} {bridge : Bridge}
    (serves : world.Serves classId id bridge)
    (agree : world.OneToOne classId bridge.states) :
    ((world.boundInstances classId).map (world.slotKey classId)).Perm bridge.states.keys := by
  have bijection := agree.bijection serves.found
  refine (List.perm_ext_iff_of_nodup ?_ (Slab.nodup_keys serves.room)).2 ?_
  · refine List.Nodup.map_on ?_ nodup_bound_instances
    intro first memberFirst second memberSecond same
    exact bijection.injOn (mem_bound_instances.1 memberFirst)
      (mem_bound_instances.1 memberSecond) same
  · intro key
    rw [Slab.mem_keys serves.room, contains_iff_state serves.found, List.mem_map]
    constructor
    · rintro ⟨handle, member, rfl⟩
      exact bijection.mapsTo (mem_bound_instances.1 member)
    · intro present
      obtain ⟨handle, bound, same⟩ := bijection.surjOn present
      exact ⟨handle, mem_bound_instances.2 bound, same⟩

theorem Serves.together {id : BridgeId} {bridge : Bridge}
    (serves : world.Serves classId id bridge)
    (agree : world.OneToOne classId bridge.states) : world.OneHandleOneState classId id := by
  have bijection := agree.bijection serves.found
  refine ⟨bijection, ?_, ?_, ?_, ?_⟩
  · have lengths := (serves.perm_keys agree).length_eq
    rw [List.length_map, Slab.length_keys, ← agree.sound.counted] at lengths
    simp [liveStates, serves.found, lengths]
  · intro value
    rw [is_bound_iff]
    constructor
    · rintro ⟨key, bound, -⟩
      obtain ⟨handle, rfl, boundTo⟩ := handle_of_bound_key serves bound
      obtain ⟨bits, boundBits, -⟩ := boundTo
      exact ⟨handle, bits, rfl, boundBits⟩
    · rintro ⟨handle, bits, rfl, boundTo⟩
      have found := decoded_of_bound ⟨bits, boundTo⟩
      refine ⟨world.slotKey classId handle, bound_key_eq_ok.2 ⟨bridge, serves.found, ?_⟩, ?_⟩
      · rw [serves.ofClass]
        exact found
      · exact bijection.mapsTo ⟨bits, boundTo⟩
  · intro handle key bound
    obtain ⟨other, found, slot⟩ := bound_key_eq_ok.1 bound
    cases serves.found.symm.trans found
    rw [serves.ofClass] at slot
    exact (contains_iff_state found key).1 (agree.reaches handle key slot)
  · intro handle
    rcases finalize_signal_cases world id handle with
      ⟨same, -⟩ | ⟨key, state, -, -, same⟩ | ⟨key, bound, missing, -⟩
    · exact ⟨.unboundFinalize, by rw [same]; rfl, fun _ => by simp⟩
    · refine ⟨.finalized key state.callback.isSome, ?_, fun _ => by simp⟩
      rw [same]
      simp [emit, modifyStates, modifyBridge, events_bind_handle]
    · obtain ⟨other, found, slot⟩ := bound_key_eq_ok.1 bound
      cases serves.found.symm.trans found
      rw [serves.ofClass] at slot
      have present := agree.reaches handle key slot
      rw [contains_of_state serves.found, missing] at present
      cases present

theorem Serves.begin_call {id : BridgeId} {bridge : Bridge}
    (serves : world.Serves classId id bridge) (other : BridgeId) :
    ∃ later, (world.beginCall other).Serves classId id later := by
  have persists := (changes_begin_call world other).persists
  obtain ⟨later, found, sameClass, -, sameInstalled, -⟩ :=
    persists.bridges id bridge serves.found
  have origins : ∀ place held, (world.beginCall other).bridge? place = some held →
      ∃ earlier, world.bridge? place = some earlier ∧ held.classId = earlier.classId ∧
        held.states = earlier.states := by
    intro place held reached
    rw [beginCall, bridge_modify] at reached
    by_cases same : place = other
    · subst same
      rw [if_pos rfl] at reached
      obtain ⟨earlier, foundEarlier, rfl⟩ := Option.map_eq_some_iff.1 reached
      exact ⟨earlier, foundEarlier, rfl, rfl⟩
    · rw [if_neg same] at reached
      exact ⟨held, reached, rfl, rfl⟩
  refine ⟨later, found, sameInstalled.trans serves.installed, sameClass.trans serves.ofClass,
    ?_, ?_⟩
  · intro place held reached ofClass
    obtain ⟨earlier, foundEarlier, same, -⟩ := origins place held reached
    exact serves.alone place earlier foundEarlier (same.symm.trans ofClass)
  · obtain ⟨earlier, foundEarlier, -, states⟩ := origins id later found
    cases serves.found.symm.trans foundEarlier
    rw [states]
    exact serves.room

end World

namespace Machine

variable {machine : Machine} {classId : ClassId}

/-- A step that takes an object out of the heap takes out an unbound one. -/
theorem Orderly.unbound_of_removed (orderly : machine.Orderly classId) {id : BridgeId}
    {bridge : Bridge} (serves : machine.world.Serves classId id bridge)
    (running : machine.step.world.engine.running = true) {object : ObjectId}
    (alive : machine.world.isAlive (.object object) = true)
    (gone : machine.step.world.isAlive (.object object) = false) :
    machine.world.slotKey? (.object object) classId = none := by
  have still : ¬machine.step.world.isAlive (.object object) = true := by simp [gone]
  cases shape : machine.agenda with
  | nil =>
      rw [step_of_nil shape] at still
      exact absurd alive still
  | cons task rest =>
      cases orderly.grounded.stepped shape with
      | lawful lawful world agenda =>
          rw [world] at still running
          exact absurd (lawful.effect.alive running alive) still
      | @reclaim _ reclaimed _ found dead world agenda =>
          have regular := World.regular_run_finalizer orderly.grounded.world reclaimed
          rw [world] at still running
          exact absurd (regular.effect.alive running alive) still
      | @remove _ removed world agenda =>
          by_cases same : object = removed
          · subst same
            exact orderly.unbound id bridge serves object (by simp [shape])
          · rw [world, World.is_alive_iff, World.kind_remove_object] at still
            simp only [Value.object.injEq, same, if_false] at still
            exact absurd (World.is_alive_iff.1 alive) still
      | bind world agenda =>
          rw [world] at still
          rw [World.is_alive_bind_signal] at still
          exact absurd alive still
      | slot world agenda =>
          rw [world] at still
          rw [World.is_alive_set_slot] at still
          exact absurd alive still

/-- Whatever scripts and clients do, short of writing slots of the class or making a second
bridge for it, the bound live handles of an installed bridge and its live states belong
together one to one, before and after every task and within every call. What leaves the heap
was unbound. -/
theorem one_handle_one_state {id : BridgeId} {bridge : Bridge}
    (reached : Reachable classId machine) (running : machine.world.engine.running = true)
    (serves : machine.world.Serves classId id bridge) :
    machine.world.OneHandleOneState classId id ∧
      (∀ other, (machine.world.beginCall other).OneHandleOneState classId id) ∧
      ∀ object, machine.step.world.engine.running = true →
        machine.world.isAlive (.object object) = true →
        machine.step.world.isAlive (.object object) = false →
        machine.world.slotKey? (.object object) classId = none := by
  have orderly := reached.orderly running
  refine ⟨?_, ?_, ?_⟩
  · exact serves.together (orderly.bound.agree id bridge serves)
  · intro other
    obtain ⟨later, servesLater⟩ := serves.begin_call other
    have bound := (World.changes_begin_call machine.world other).bound orderly.bound
    exact servesLater.together (bound.agree id later servesLater)
  · intro object stays alive gone
    exact orderly.unbound_of_removed serves stays alive gone

/-- A bridge is installed, and one Signal is constructed through it. -/
def firstSignal : Machine :=
  runAll 20 (start .deferred)
    [.act "install" (.bridge (.install "signals" {})) none,
      .act "construct" (.bridge (.enter "signals" .construct (.literal .undefined) [])) none]

theorem reachable_first_signal (classId : ClassId) : Reachable classId firstSignal := by
  have installed : Reachable classId (runAll 20 (start .deferred)
      [.act "install" (.bridge (.install "signals" {})) none]) := by
    refine (Reachable.submit (.start .deferred) rfl ?_).run rfl
    exact Step.known_of_no_objects _ rfl
  refine (installed.submit rfl ?_).run rfl
  exact Step.known_of_no_objects _ rfl

theorem one_handle_one_state_of_first_signal :
    firstSignal.world.OneHandleOneState ⟨0⟩ ⟨0⟩ ∧ firstSignal.world.liveStates ⟨0⟩ = 1 := by
  have running : firstSignal.world.engine.running = true := rfl
  have serves : ∃ bridge, firstSignal.world.Serves ⟨0⟩ ⟨0⟩ bridge := by
    refine ⟨_, rfl, rfl, rfl, ?_, by decide⟩
    intro other bridge found ofClass
    exact World.bridge_of_single rfl found
  obtain ⟨bridge, serves⟩ := serves
  exact ⟨(one_handle_one_state (reachable_first_signal ⟨0⟩) running serves).1, rfl⟩

end Machine

end ScriptSignal
