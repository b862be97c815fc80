import ScriptSignal.Proofs.Commands

/-!
# Prototypes and what is found along them

An object gets its prototype when it is allocated, and keeps it. As places are given out in
order and never twice, the prototype is older than the object, whether it is still there or
not. A search along prototypes therefore comes to its end, though nothing else would stop it,
and what it finds is the nearest definition.
-/

namespace ScriptSignal

set_option autoImplicit false

namespace Heap

def Aged (heap : Heap) : Prop :=
  ∀ id object proto, heap.get? id = some object → object.proto = some proto →
    proto.index < id.index

/-- The search for a key that goes from an object to its prototype and on. It ends where there
is no prototype, at an object that was freed and at the first object that has the key. -/
inductive Search (heap : Heap) (key : String) : Option ObjectId → Option Value → Prop
  | ended : Search heap key none none
  | freed {id : ObjectId} (missing : heap.get? id = none) : Search heap key (some id) none
  | found {id : ObjectId} {object : Object} {value : Value}
      (present : heap.get? id = some object) (has : object.properties.find? key = some value) :
      Search heap key (some id) (some value)
  | onward {id : ObjectId} {object : Object} {result : Option Value}
      (present : heap.get? id = some object) (lacks : object.properties.find? key = none)
      (next : Search heap key object.proto result) : Search heap key (some id) result

section Search

variable {heap : Heap} {key : String}

theorem aged_empty : empty.Aged := by
  intro id object proto found
  simp [empty, get?] at found

theorem Search.unique {place : Option ObjectId} {result other : Option Value}
    (search : heap.Search key place result) (also : heap.Search key place other) :
    result = other := by
  induction search with
  | ended =>
      cases also
      rfl
  | freed missing =>
      cases also with
      | freed => rfl
      | found present has => cases missing.symm.trans present
      | onward present lacks next => cases missing.symm.trans present
  | found present has =>
      cases also with
      | freed missing => cases missing.symm.trans present
      | found again holds =>
          cases present.symm.trans again
          exact has.symm.trans holds
      | onward again lacks next =>
          cases present.symm.trans again
          cases has.symm.trans lacks
  | onward present lacks next induction =>
      cases also with
      | freed missing => cases missing.symm.trans present
      | found again holds =>
          cases present.symm.trans again
          cases lacks.symm.trans holds
      | onward again _ onward =>
          cases present.symm.trans again
          exact induction onward

/-- Among older and older objects a search has gone through all of them after so many steps. -/
theorem Aged.search_within (aged : heap.Aged) {steps : Nat} {id : ObjectId}
    (enough : id.index < steps) : heap.Search key (some id) (heap.lookupWithin key steps id) := by
  induction steps generalizing id with
  | zero => exact absurd enough (Nat.not_lt_zero _)
  | succ steps induction =>
      unfold lookupWithin
      cases present : heap.get? id with
      | none => exact .freed present
      | some object =>
          cases held : object.properties.find? key with
          | some value =>
              simp only [held]
              exact .found present held
          | none =>
              simp only [held]
              refine .onward present held ?_
              cases above : object.proto with
              | none => exact .ended
              | some proto =>
                  have older := aged id object proto present above
                  exact induction (Nat.lt_of_lt_of_le older (Nat.le_of_lt_succ enough))

theorem Aged.search (aged : heap.Aged) (id : ObjectId) (key : String) :
    heap.Search key (some id) (heap.lookup id key) :=
  aged.search_within (Nat.lt_succ_self _)

theorem Aged.search_iff (aged : heap.Aged) {id : ObjectId} {result : Option Value} :
    heap.Search key (some id) result ↔ result = heap.lookup id key := by
  constructor
  · exact fun search => search.unique (aged.search id key)
  · rintro rfl
    exact aged.search id key

end Search

section Aged

variable {heap : Heap} {id : ObjectId}

theorem Aged.put {old new : Object} (aged : heap.Aged) (found : heap.get? id = some old)
    (same : new.proto = old.proto) : (heap.put id new).Aged := by
  intro other object proto there above
  by_cases here : other = id
  · subst here
    rw [get_put_same found] at there
    cases there
    exact aged other old proto found (same.symm.trans above)
  · rw [get_put_other _ here] at there
    exact aged other object proto there above

theorem Aged.alloc (aged : heap.Aged) (kind : ObjectKind) {proto : Option ObjectId}
    (known : ∀ id ∈ proto, id.index < heap.places.size) : (heap.alloc kind proto).Aged := by
  intro other object above there found
  by_cases new : other = heap.nextId
  · subst new
    rw [get_alloc_same] at there
    cases there
    exact known above found
  · rw [get_alloc_other _ _ _ new] at there
    exact aged other object above there found

theorem Aged.remove (aged : heap.Aged) (id : ObjectId) : (heap.remove id).Aged := by
  intro other object proto there above
  by_cases here : other = id
  · subst here
    rw [get_remove_same] at there
    cases there
  · rw [get_remove_other _ here] at there
    exact aged other object proto there above

end Aged

end Heap

theorem Move.aged {inscribes : Prop} {grasp after : Grasp} (move : Move inscribes grasp after)
    (aged : grasp.world.engine.heap.Aged) : after.world.engine.heap.Aged := by
  cases move with
  | put found counted proto kind => exact aged.put found proto
  | @allocate kind proto running unbound older => exact aged.alloc kind older
  | _ => exact aged

theorem Moves.aged {inscribes : Prop} {grasp after : Grasp} (moves : Moves inscribes grasp after)
    (aged : grasp.world.engine.heap.Aged) : after.world.engine.heap.Aged := by
  induction moves with
  | refl => exact aged
  | tail _ move induction => exact move.aged induction

namespace World

section Aged

variable {world : World}

theorem aged_release (aged : world.engine.heap.Aged) (value : Value) :
    (world.release value).1.engine.heap.Aged := by
  unfold release
  split
  · unfold releaseObject
    split
    · exact aged
    · rename_i object found
      split
      · exact aged
      · rename_i count counted
        have lowered := @Heap.Aged.put _ _ _ { object with refCount := count } aged found rfl
        dsimp only
        split
        · split <;> exact lowered
        · exact lowered
  · exact aged

theorem aged_remove_object (aged : world.engine.heap.Aged) (id : ObjectId) :
    (world.removeObject id).1.engine.heap.Aged := by
  unfold removeObject
  split
  · exact aged
  · exact aged.remove id

end Aged

end World

namespace Machine

section Aged

variable {machine after : Machine} {rest : List Task} {task : Task}

theorem Turn.aged (turn : Turn machine rest task after)
    (aged : machine.world.engine.heap.Aged) : after.world.engine.heap.Aged := by
  have still : ∀ {engine : Engine}, engine = machine.world.engine → engine.heap.Aged := by
    rintro engine rfl
    exact aged
  cases turn with
  | moved moves bare spares world agenda callers =>
      exact world ▸ (moves.moves [] [] []).aged aged
  | leave moves agenda callers => exact (moves.moves [] [] []).aged aged
  | reclaim found last world agenda callers =>
      rw [world]
      exact ((@World.moves_run_finalizer True machine.world [] trivial _).moves [] [] []).aged aged
  | release world agenda callers =>
      rw [world]
      exact World.aged_release aged _
  | remove world agenda callers =>
      rw [world]
      exact World.aged_remove_object aged _
  | drain world agenda callers =>
      rw [world]
      unfold World.drain
      split
      · exact aged
      · dsimp only
        split <;> exact aged
  | shutDown alone world agenda callers =>
      rw [world]
      exact Heap.aged_empty
  | drop world agenda callers => exact still (by rw [world, World.engine_drop_reference])
  | settle world agenda callers => exact still (by rw [world, engine_settle_bridge])
  | endCall world agenda callers => exact still (by rw [world]; exact engine_settle_bridge _ _)
  | _ => exact still (by simp [*])

/-- Whatever clients and scripts do, prototypes are older than their objects. -/
theorem Attained.aged (attained : machine.Attained) : machine.world.engine.heap.Aged := by
  refine attained.induction (motive := fun machine => machine.world.engine.heap.Aged)
    (fun _ => Heap.aged_empty) ?_ fun _ _ _ _ aged => aged
  intro before reached aged
  cases shape : before.agenda with
  | nil =>
      rw [step_of_nil shape]
      exact aged
  | cons task rest => exact (reached.kept.turn shape).aged aged

end Aged

/-- What is found along prototypes, and what it takes to read it. -/
structure FindsNearest (machine : Machine) : Prop where
  /-- The prototype of an object is older than the object, even if it was freed. -/
  older : ∀ id object proto, machine.world.engine.heap.get? id = some object →
    object.proto = some proto → proto.index < id.index
  /-- Every search ends, and it ends with what is looked up. -/
  ends : ∀ id key result, machine.world.engine.heap.Search key (some id) result ↔
    result = machine.world.engine.heap.lookup id key
  /-- Who asks an object for a property is answered what was found, or undefined, and comes by
  one reference to it, if there is room for its count. -/
  reads : ∀ label operand key keep id rest, machine.world.engine.running = true →
    machine.agenda = .perform (.act label (.object (.getProperty operand key)) keep) :: rest →
    machine.read operand = .object id → machine.step.world.InBounds →
      ∃ last value, Finishes rest machine last ∧
        value = (machine.world.engine.heap.lookup id key).getD .undefined ∧
        last.frame.reply = .value value ∧
        World.Raised { machine.world with
          client := machine.world.client.keeping keep [value] } last.world
            fun other => if value = .object other then 1 else 0

section FindsNearest

variable {machine : Machine}

theorem count_value (value : Value) (id : ObjectId) :
    [value].count (.object id) = if value = .object id then 1 else 0 := by
  rw [List.count_singleton]
  simp

/-- Whatever clients and scripts do, a property is looked up along older and older objects, and the
nearest definition is read. -/
theorem finds_nearest_of_attained (inBounds : machine.AttainedInBounds) :
    machine.FindsNearest := by
  have aged := inBounds.attained.aged
  refine ⟨aged, fun id key result => aged.search_iff, ?_⟩
  intro label operand key keep id rest running shape means _
  let value := (machine.world.engine.heap.lookup id key).getD .undefined
  have done : machine.world.perform machine.read (.object (.getProperty operand key)) =
      (machine.world.duplicate value).done (.value value) := by
    simp [World.perform, running, World.performRunning, World.performObject, World.getProperty,
      World.property?, means, World.give, value]
  obtain ⟨last, finishes, world, reply⟩ := finishes_done shape rfl done
  refine ⟨last, value, finishes, rfl, reply, ?_⟩
  have raised := World.raised_duplicate machine.world value
  rw [world, raised.client]
  refine ⟨?_, raised.size, raised.engine, raised.bridges, rfl⟩
  intro other
  rw [← count_value]
  exact raised.objects other

/-- A Signal is asked for what only its prototype has. -/
def inheritedProperty : Machine :=
  (runAll 40 (start .immediate)
    [.act "install" (.bridge (.install "signals" {})) none,
      .act "prototype" (.classes (.prototype ⟨0⟩)) (some "prototype"),
      .act "function" (.object (.createFunction "shared")) (some "shared"),
      .act "set" (.object (.setProperty (.register "prototype") "shared" (.register "shared")))
        none,
      .act "construct" (.bridge (.enter "signals" .construct (.literal .undefined) []))
        (some "signal")]).submit
    (.act "read" (.object (.getProperty (.register "signal") "shared")) (some "found"))

theorem finds_nearest_of_inherited_property :
    inheritedProperty.FindsNearest ∧
      inheritedProperty.read (.register "signal") = .object ⟨2⟩ ∧
      inheritedProperty.world.engine.heap.lookup ⟨2⟩ "shared" = some (.object ⟨1⟩) := by
  have inBounds : inheritedProperty.AttainedInBounds :=
    ((attained_in_bounds_start .immediate).run_all (@rfl _ [])
      (show checkBoundsAll 40 _ _ = true from rfl)).submit rfl
        (World.in_bounds_of_check (show World.checkBounds _ = true from rfl))
  exact ⟨finds_nearest_of_attained inBounds, rfl, rfl⟩

end FindsNearest

end Machine

end ScriptSignal
