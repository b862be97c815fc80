import Mathlib.Algebra.BigOperators.Group.Finset.Basic
import Mathlib.Algebra.Order.BigOperators.Group.Finset
import ScriptSignal.Proofs.Accounts
import ScriptSignal.Proofs.Signals

/-!
# The objects that nobody else refers to

Objects with counted references are seen as a graph. Some references may be given back
from outside. A set of objects is closed when it has every live object whose count is made
up of references from within the set and of those that are given back. The least closed
set is the garbage: it is what has to go, and nothing besides. Garbage depends on counts
and references of its own members only, and it can be found in portions.
-/

namespace ScriptSignal

set_option autoImplicit false

structure RefGraph where
  live : ObjectId → Prop
  count : ObjectId → Nat
  /-- How many references an object holds to another one. -/
  holds : ObjectId → ObjectId → Nat

namespace RefGraph

def heldBy (graph : RefGraph) (holders : Finset ObjectId) (id : ObjectId) : Nat :=
  ∑ holder ∈ holders, graph.holds holder id

def Closed (graph : RefGraph) (given : ObjectId → Nat) (set : Finset ObjectId) : Prop :=
  ∀ id, graph.live id → graph.count id ≤ graph.heldBy set id + given id → id ∈ set

structure Garbage (graph : RefGraph) (given : ObjectId → Nat) (set : Finset ObjectId) : Prop where
  closed : graph.Closed given set
  least : ∀ other, graph.Closed given other → set ⊆ other

variable {graph other : RefGraph} {given : ObjectId → Nat} {dead more : Finset ObjectId}

theorem held_by_mono {few many : Finset ObjectId} (less : few ⊆ many) (id : ObjectId) :
    graph.heldBy few id ≤ graph.heldBy many id :=
  Finset.sum_le_sum_of_subset less

theorem held_by_congr (same : ∀ holder ∈ dead, other.holds holder = graph.holds holder)
    (id : ObjectId) : other.heldBy dead id = graph.heldBy dead id :=
  Finset.sum_congr rfl fun holder member => congrFun (same holder member) id

theorem held_by_union (apart : Disjoint dead more) (id : ObjectId) :
    graph.heldBy (dead ∪ more) id = graph.heldBy dead id + graph.heldBy more id :=
  Finset.sum_union apart

@[simp] theorem held_by_empty (id : ObjectId) : graph.heldBy ∅ id = 0 := rfl

theorem Garbage.unique (garbage : graph.Garbage given dead) (also : graph.Garbage given more) :
    dead = more :=
  Finset.Subset.antisymm (garbage.least more also.closed) (also.least dead garbage.closed)

/-- What happens to other objects is nothing to the garbage, as long as they keep a
reference from elsewhere. -/
theorem Garbage.transfer (garbage : graph.Garbage given dead)
    (stays : ∀ id ∈ dead, graph.live id → other.live id)
    (counts : ∀ id ∈ dead, other.count id = graph.count id)
    (holds : ∀ id ∈ dead, other.holds id = graph.holds id)
    (guarded : ∀ id, id ∉ dead → other.live id → graph.heldBy dead id + given id < other.count id) :
    other.Garbage given dead where
  closed := by
    intro id live few
    by_contra outside
    have enough := guarded id outside live
    rw [held_by_congr holds] at few
    omega
  least := by
    intro set closed
    -- the part of the set within the garbage is closed already in the old graph
    have part : graph.Closed given (set ∩ dead) := by
      intro id live few
      have within : graph.heldBy (set ∩ dead) id ≤ graph.heldBy dead id :=
        held_by_mono Finset.inter_subset_right id
      have member : id ∈ dead := garbage.closed id live (by omega)
      have smaller : other.heldBy (set ∩ dead) id ≤ other.heldBy set id :=
        held_by_mono Finset.inter_subset_left id
      have same : other.heldBy (set ∩ dead) id = graph.heldBy (set ∩ dead) id :=
        held_by_congr (fun holder inside => holds holder (Finset.mem_inter.1 inside).2) id
      have count := counts id member
      exact Finset.mem_inter.2 ⟨closed id (stays id member live) (by omega), member⟩
    exact (garbage.least _ part).trans Finset.inter_subset_left

/-- It makes no difference whether references are still to be given back or are off the counts
already. -/
theorem Garbage.given_back (garbage : graph.Garbage given dead)
    (live : ∀ id, other.live id ↔ graph.live id)
    (fewer : ∀ id, graph.live id → other.count id + given id = graph.count id)
    (same : ∀ id, other.holds id = graph.holds id) : other.Garbage (fun _ => 0) dead := by
  have closed : ∀ set, other.Closed (fun _ => 0) set ↔ graph.Closed given set := by
    intro set
    have held : ∀ id, other.heldBy set id = graph.heldBy set id :=
      held_by_congr fun holder _ => same holder
    constructor
    · intro closed id alive few
      have counts := fewer id alive
      exact closed id ((live id).2 alive) (by rw [held]; dsimp only; omega)
    · intro closed id alive few
      have counts := fewer id ((live id).1 alive)
      rw [held] at few
      exact closed id ((live id).1 alive) (by dsimp only at few; omega)
  exact ⟨(closed dead).2 garbage.closed, fun set also => garbage.least set ((closed set).1 also)⟩

/-- Where some garbage was taken out before further references were given back, the graph
that still has it and that has given back the same has the garbage of both times. -/
theorem Garbage.union {rest after : RefGraph} (first : graph.Garbage (fun _ => 0) dead)
    (last : rest.Garbage given more) (inside : ∀ id ∈ more, rest.live id)
    (survives : ∀ id, rest.live id ↔ graph.live id ∧ id ∉ dead)
    (counts : ∀ id, rest.live id → rest.count id + graph.heldBy dead id = graph.count id)
    (holds : ∀ id, id ∉ dead → rest.holds id = graph.holds id)
    (live : ∀ id, after.live id ↔ graph.live id)
    (fewer : ∀ id, graph.live id → after.count id + given id = graph.count id)
    (same : ∀ id, after.holds id = graph.holds id) :
    after.Garbage (fun _ => 0) (dead ∪ more) := by
  have apart : Disjoint dead more :=
    Finset.disjoint_right.2 fun id member => ((survives id).1 (inside id member)).2
  have held : ∀ set id, after.heldBy set id = graph.heldBy set id := fun set id =>
    held_by_congr (fun holder _ => same holder) id
  have heldRest : ∀ set : Finset ObjectId, Disjoint dead set → ∀ id,
      rest.heldBy set id = graph.heldBy set id := fun set outside id =>
    held_by_congr (fun holder member => holds holder (Finset.disjoint_right.1 outside member)) id
  refine ⟨?_, ?_⟩
  · intro id alive few
    have known := (live id).1 alive
    by_cases member : id ∈ dead
    · exact Finset.mem_union_left _ member
    · have remains := (survives id).2 ⟨known, member⟩
      have before := fewer id known
      have now := counts id remains
      rw [held, held_by_union apart] at few
      dsimp only at few
      refine Finset.mem_union_right _ (last.closed id remains ?_)
      rw [heldRest more apart]
      omega
  · intro set closed
    have early : dead ⊆ set := by
      apply first.least
      intro id alive few
      have before := fewer id alive
      dsimp only at few
      refine closed id ((live id).2 alive) ?_
      rw [held]
      omega
    have late : rest.Closed given (set \ dead) := by
      intro id remains few
      obtain ⟨alive, outside⟩ := (survives id).1 remains
      have before := fewer id alive
      have now := counts id remains
      rw [heldRest _ Finset.disjoint_sdiff] at few
      have split : graph.heldBy set id = graph.heldBy dead id + graph.heldBy (set \ dead) id := by
        rw [← held_by_union Finset.disjoint_sdiff, Finset.union_sdiff_of_subset early]
      refine Finset.mem_sdiff.2 ⟨closed id ((live id).2 alive) ?_, outside⟩
      rw [held]
      omega
    exact Finset.union_subset early ((last.least _ late).trans Finset.sdiff_subset)

end RefGraph

namespace World

def ownedBy (world : World) (id : ObjectId) : List Value :=
  (world.engine.heap.get? id).elim [] Object.owned

def heldThrough (world : World) (bridge : BridgeId) (id : ObjectId) : List Value :=
  match world.boundState bridge (.object id) with
  | .ok (_, state) => state.values
  | .error _ => []

/-- The callbacks and links of the states that an object is bound to. -/
def boundValues (world : World) (id : ObjectId) : List Value :=
  (List.range world.bridges.size).flatMap fun index => world.heldThrough ⟨index⟩ id

/-- Live objects refer to what they own and, where they are bound handles, to what their
states hold. -/
def graph (world : World) : RefGraph where
  live id := world.isAlive (.object id) = true
  count := world.references
  holds holder id :=
    (world.ownedBy holder).count (.object id) + (world.boundValues holder).count (.object id)

theorem held_by_eq (world : World) (dead : Finset ObjectId) (id : ObjectId) :
    world.graph.heldBy dead id =
      ∑ holder ∈ dead, (world.ownedBy holder).count (.object id)
        + ∑ holder ∈ dead, (world.boundValues holder).count (.object id) :=
  Finset.sum_add_distrib

theorem owned_by_of_get {world : World} {id : ObjectId} {object : Object}
    (found : world.engine.heap.get? id = some object) : world.ownedBy id = object.owned := by
  simp [ownedBy, found]

section Bound

variable {world : World}

theorem flat_map_range_single {α : Type} (size place : Nat) (items : Nat → List α)
    (elsewhere : ∀ index, index ≠ place → items index = []) :
    (List.range size).flatMap items = if place < size then items place else [] := by
  induction size with
  | zero => simp
  | succ size induction =>
      rw [List.range_succ, List.flatMap_append, induction, List.flatMap_singleton]
      by_cases last : size = place
      · subst last
        simp
      · rw [elsewhere size last, List.append_nil]
        have smaller : place < size + 1 ↔ place < size := by omega
        simp [smaller]

theorem held_through_of_unbound {bridge : BridgeId} {id : ObjectId}
    (unbound : ∀ key state, world.boundState bridge (.object id) ≠ .ok (key, state)) :
    world.heldThrough bridge id = [] := by
  unfold heldThrough
  split
  · rename_i key state bound
    exact absurd bound (unbound key state)
  · rfl

theorem bound_values_of_unbound {id : ObjectId}
    (unbound : ∀ bridge key state, world.boundState bridge (.object id) ≠ .ok (key, state)) :
    world.boundValues id = [] := by
  simp [boundValues, held_through_of_unbound (unbound _)]

theorem bound_values_of_bound (paired : world.Paired) {bridge : BridgeId} {id : ObjectId}
    {key : Key} {state : SignalState}
    (bound : world.boundState bridge (.object id) = .ok (key, state)) :
    world.boundValues id = state.values := by
  have elsewhere : ∀ index, index ≠ bridge.index → world.heldThrough ⟨index⟩ id = [] := by
    intro index apart
    apply held_through_of_unbound
    intro other held also
    have same := paired.bridge_of_bound (bound_state_eq_ok_iff.1 bound).1
      (bound_state_eq_ok_iff.1 also).1
    exact apart (congrArg BridgeId.index same)
  obtain ⟨held, found, -⟩ := bound_key_eq_ok.1 (bound_state_eq_ok_iff.1 bound).1
  have inside : bridge.index < world.bridges.size := (Array.getElem?_eq_some_iff.1 found).1
  have there : world.heldThrough bridge id = state.values := by simp [heldThrough, bound]
  unfold boundValues
  rw [flat_map_range_single _ _ _ elsewhere, if_pos inside]
  exact there

end Bound

end World

end ScriptSignal
