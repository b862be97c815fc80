import ScriptSignal.Proofs.Mirrors

/-!
# What becomes of the waste

Waste is the garbage of a world in which nothing more is given back. Whatever is done outside
of the waste leaves it the garbage, since all other objects keep references from elsewhere.
When some references are given back, the waste grows by what the mirror world removes at once,
and a collection removes all of it.
-/

namespace ScriptSignal

set_option autoImplicit false

namespace World

structure Reflects (deferred immediate : World) (waste : Finset ObjectId) : Prop where
  mirrors : Mirrors deferred waste deferred immediate
  garbage : deferred.graph.Garbage (fun _ => 0) waste

section Holders

variable {world other : World} {id : ObjectId}

theorem owned_by_of_map
    (same : (other.engine.heap.get? id).map Object.owned =
      (world.engine.heap.get? id).map Object.owned) :
    other.ownedBy id = world.ownedBy id := by
  have read : ∀ world : World, world.ownedBy id =
      ((world.engine.heap.get? id).map Object.owned).getD [] := by
    intro world
    unfold ownedBy
    cases world.engine.heap.get? id <;> rfl
  rw [read, read, same]

theorem references_of_map
    (same : (other.engine.heap.get? id).map Object.refCount =
      (world.engine.heap.get? id).map Object.refCount) :
    other.references id = world.references id := by
  have read : ∀ world : World, world.references id =
      ((world.engine.heap.get? id).map Object.refCount).getD 0 := by
    intro world
    unfold references
    cases world.engine.heap.get? id <;> rfl
  rw [read, read, same]

theorem bound_values_of_signals (paired : world.Paired) (also : other.Paired)
    (same : ∀ bridge, other.signal? bridge (.object id) = world.signal? bridge (.object id)) :
    other.boundValues id = world.boundValues id := by
  by_cases some : ∃ bridge state, world.signal? bridge (.object id) = some state
  · obtain ⟨bridge, state, held⟩ := some
    obtain ⟨key, bound⟩ := signal_eq_some_iff.1 held
    obtain ⟨otherKey, otherBound⟩ := signal_eq_some_iff.1 ((same bridge).trans held)
    rw [bound_values_of_bound paired bound, bound_values_of_bound also otherBound]
  · have unbound : ∀ bridge key state, world.boundState bridge (.object id) ≠ .ok (key, state) :=
      fun bridge key state bound => some ⟨bridge, state, signal_eq_some_iff.2 ⟨key, bound⟩⟩
    have otherUnbound : ∀ bridge key state,
        other.boundState bridge (.object id) ≠ .ok (key, state) := by
      intro bridge key state bound
      exact some ⟨bridge, state, (same bridge).symm.trans (signal_eq_some_iff.2 ⟨key, bound⟩)⟩
    rw [bound_values_of_unbound unbound, bound_values_of_unbound otherUnbound]

theorem edge_of_holds {holder : ObjectId} (holds : world.graph.holds holder id ≠ 0) :
    world.Edge holder id := by
  by_cases owned : .object id ∈ world.ownedBy holder
  · unfold ownedBy at owned
    cases found : world.engine.heap.get? holder with
    | none =>
        rw [found] at owned
        cases owned
    | some object =>
        rw [found] at owned
        exact .owned found owned
  · have bound : .object id ∈ world.boundValues holder := by
      by_contra absent
      exact holds (by simp [graph, List.count_eq_zero.2 owned, List.count_eq_zero.2 absent])
    obtain ⟨index, -, member⟩ := List.mem_flatMap.1 bound
    unfold heldThrough at member
    split at member
    · rename_i key state reached
      exact .held reached member
    · cases member

theorem alive_of_held_by (covered : world.Covered) {holders : Finset ObjectId}
    (held : world.graph.heldBy holders id ≠ 0) : world.isAlive (.object id) = true := by
  obtain ⟨holder, -, holds⟩ := Finset.exists_ne_zero_of_sum_ne_zero held
  exact alive_of_edge covered (edge_of_holds holds)

theorem get_of_dead (dead : world.isAlive (.object id) = false) :
    world.engine.heap.get? id = none := by
  simpa [isAlive, object?, Value.object?] using dead

theorem references_pos (alive : world.isAlive (.object id) = true) (unspent : ¬world.Spent id) :
    0 < world.references id := by
  obtain ⟨place, object, same, found⟩ := object_of_alive alive
  cases same
  rw [references_of_get id found]
  exact Nat.pos_of_ne_zero fun none => unspent ⟨object, found, none⟩

end Holders

section Waste

variable {origin deferred immediate lowered swept : World} {waste dead : Finset ObjectId}
  {given : List Value}

theorem Mirrors.waste_holds (mirrors : Mirrors origin waste deferred immediate)
    (before : origin.Paired) (paired : deferred.Paired) {holder : ObjectId}
    (member : holder ∈ waste) :
    deferred.graph.holds holder = origin.graph.holds holder := by
  have owned : deferred.ownedBy holder = origin.ownedBy holder := by
    have same := congrArg (Option.map Object.owned) (mirrors.kept holder member)
    simp only [Option.map_map] at same
    exact owned_by_of_map same
  have bound := bound_values_of_signals before paired (mirrors.bound holder member)
  funext id
  simp only [graph, owned, bound]

theorem Mirrors.holds (mirrors : Mirrors origin waste deferred immediate)
    (paired : deferred.Paired) (also : immediate.Paired) {holder : ObjectId}
    (outside : holder ∉ waste) : immediate.graph.holds holder = deferred.graph.holds holder := by
  have owned : immediate.ownedBy holder = deferred.ownedBy holder := by
    have same := congrArg (Option.map Object.owned) (mirrors.objects holder outside)
    simp only [Option.map_map] at same
    exact owned_by_of_map same.symm
  have bound := bound_values_of_signals paired also fun bridge =>
    mirrors.signals bridge holder outside
  funext id
  simp only [graph, owned, bound]

theorem Mirrors.references (mirrors : Mirrors origin waste deferred immediate) {id : ObjectId}
    (alive : immediate.isAlive (.object id) = true) :
    deferred.references id = immediate.references id + origin.graph.heldBy waste id := by
  obtain ⟨place, object, same, found⟩ := object_of_alive alive
  cases same
  obtain ⟨full, reached, alike⟩ := mirrors.found (mirrors.outside_of_alive alive) found
  obtain ⟨counts, -⟩ := Object.parts_of_laden alike
  rw [references_of_get id found, references_of_get id reached, counts]

theorem Mirrors.alive_iff (mirrors : Mirrors origin waste deferred immediate) (id : ObjectId) :
    immediate.isAlive (.object id) = true ↔
      deferred.isAlive (.object id) = true ∧ id ∉ waste := by
  constructor
  · intro alive
    have outside := mirrors.outside_of_alive alive
    rw [← mirrors.is_alive (Value.outside_object outside)]
    exact ⟨alive, outside⟩
  · rintro ⟨alive, outside⟩
    rw [mirrors.is_alive (Value.outside_object outside)]
    exact alive

/-- As long as no object of the mirror world is without references, the waste is still the
garbage. -/
theorem Mirrors.reflects (mirrors : Mirrors origin waste deferred immediate)
    (garbage : origin.graph.Garbage (fun _ => 0) waste) (before : origin.Paired)
    (paired : deferred.Paired) (unspent : ∀ id, ¬immediate.Spent id) :
    deferred.Reflects immediate waste := by
  have held : ∀ id, deferred.graph.heldBy waste id = origin.graph.heldBy waste id :=
    RefGraph.held_by_congr fun holder => mirrors.waste_holds before paired
  refine ⟨{ mirrors with
    known := ?_, kept := fun _ _ => rfl, bound := fun _ _ _ => rfl, objects := ?_ }, ?_⟩
  · simp only [held]
    exact mirrors.known
  · simp only [held]
    exact mirrors.objects
  · apply garbage.transfer
    · intro id member alive
      have same := congrArg Option.isSome (mirrors.kept id member)
      rw [Option.isSome_map, Option.isSome_map] at same
      exact same.trans alive
    · intro id member
      have same := congrArg (Option.map Object.refCount) (mirrors.kept id member)
      simp only [Option.map_map] at same
      exact references_of_map same
    · exact fun id => mirrors.waste_holds before paired
    · intro id outside alive
      have mirrored := (mirrors.alive_iff id).2 ⟨alive, outside⟩
      have some := references_pos mirrored (unspent id)
      have counts : deferred.graph.count id =
          immediate.references id + origin.graph.heldBy waste id := mirrors.references mirrored
      omega

theorem Lowered.graph_holds {world after : World} {given : ObjectId → Nat}
    (lowered : Lowered world after given) (paired : world.Paired) (holder : ObjectId) :
    after.graph.holds holder = world.graph.holds holder := by
  have later : after.Paired := paired.of_bridges lowered.tables lowered.slot_key
  have owned : after.ownedBy holder = world.ownedBy holder := by
    apply owned_by_of_map
    rw [lowered.objects, Option.map_map]
    rfl
  have bound := bound_values_of_signals paired later fun bridge =>
    signal_of_bound_state (lowered.bound_state bridge (.object holder))
  funext id
  simp only [graph, owned, bound]

theorem Lowered.alive {world after : World} {given : ObjectId → Nat}
    (lowered : Lowered world after given) (id : ObjectId) :
    after.isAlive (.object id) = world.isAlive (.object id) := by
  simp [isAlive, object?, Value.object?, lowered.objects id]

theorem Lowered.references {world after : World} {given : ObjectId → Nat}
    (lowered : Lowered world after given) (id : ObjectId) :
    after.references id = world.references id - given id := by
  unfold World.references
  rw [lowered.objects]
  cases world.engine.heap.get? id <;> simp

theorem Mirrors.held_by_union (mirrors : Mirrors origin waste deferred immediate)
    (paired : deferred.Paired) (also : immediate.Paired)
    (removed : ∀ id ∈ dead, immediate.isAlive (.object id) = true) :
    Disjoint waste dead ∧ ∀ id, deferred.graph.heldBy (waste ∪ dead) id =
      deferred.graph.heldBy waste id + immediate.graph.heldBy dead id := by
  have apart : Disjoint waste dead := Finset.disjoint_right.2 fun id member =>
    mirrors.outside_of_alive (removed id member)
  have same : ∀ id, immediate.graph.heldBy dead id = deferred.graph.heldBy dead id :=
    RefGraph.held_by_congr fun holder member =>
      mirrors.holds paired also (mirrors.outside_of_alive (removed holder member))
  refine ⟨apart, fun id => ?_⟩
  rw [RefGraph.held_by_union apart, same]

/-- What a cascade leaves has lost there what it has lost here, and what the cascade took. -/
theorem Reflects.survives (reflects : deferred.Reflects immediate waste)
    (lowering : Lowered deferred lowered fun id => given.count (.object id))
    (sweep : immediate.Swept given dead swept) {id : ObjectId} (outside : id ∉ waste)
    (kept : id ∉ dead) : (lowered.engine.heap.get? id).map Object.bare =
      (swept.engine.heap.get? id).map (Object.laden
        (deferred.graph.heldBy waste id + immediate.graph.heldBy dead id)) := by
  rw [lowering.objects]
  cases found : immediate.engine.heap.get? id with
  | none =>
      rw [reflects.mirrors.missing outside found, sweep.missing id found]
      rfl
  | some object =>
      obtain ⟨full, reached, alike⟩ := reflects.mirrors.found outside found
      obtain ⟨enough, now⟩ := sweep.survives id object kept found
      have counts := (Object.parts_of_laden alike).1
      have less : full.refCount - given.count (.object id) = object.refCount
          - (immediate.graph.heldBy dead id + given.count (.object id))
          + (deferred.graph.heldBy waste id + immediate.graph.heldBy dead id) := by omega
      rw [reached, now]
      exact congrArg some (Object.laden_of_counts alike less)

/-- Some references are given back in both worlds. What is removed at once in the one is waste
in the other. -/
theorem Reflects.sweep (reflects : deferred.Reflects immediate waste) (paired : deferred.Paired)
    (also : immediate.Paired)
    (lowering : Lowered deferred lowered fun id => given.count (.object id))
    (enough : ∀ id, given.count (.object id) ≤ deferred.references id)
    (sweep : immediate.Swept given dead swept) (covered : lowered.Covered)
    (client : swept.client = lowered.client) : lowered.Reflects swept (waste ∪ dead) := by
  have mirrors := reflects.mirrors
  have holds := lowering.graph_holds paired
  obtain ⟨apart, union⟩ := mirrors.held_by_union paired also sweep.live
  have held : ∀ id, lowered.graph.heldBy (waste ∪ dead) id =
      deferred.graph.heldBy waste id + immediate.graph.heldBy dead id := by
    intro id
    rw [RefGraph.held_by_congr fun holder _ => holds holder, union]
  refine ⟨⟨?_, client, ?_, ?_, ?_, fun _ _ => rfl, fun _ _ _ => rfl, ?_, ?_⟩, ?_⟩
  · exact mirrors.setting.square lowering.setting sweep.setting client
  · rw [sweep.total, mirrors.total, lowering.total, Finset.card_union_of_disjoint apart]
    omega
  · rintro id (member | some)
    · have size : lowered.size = deferred.size := lowering.setting.places
      rw [size]
      rcases Finset.mem_union.1 member with old | new
      · exact mirrors.known id (.inl old)
      · exact index_lt_of_alive ((mirrors.alive_iff id).1 (sweep.live id new)).1
    · exact index_lt_of_alive (alive_of_held_by covered some)
  · intro id member
    rcases Finset.mem_union.1 member with old | new
    · exact sweep.missing id (mirrors.gone id old)
    · exact get_of_dead (sweep.removed id new)
  · intro id outside
    rw [Finset.mem_union, not_or] at outside
    rw [held]
    exact reflects.survives lowering sweep outside.1 outside.2
  · intro bridge id outside
    rw [Finset.mem_union, not_or] at outside
    rw [signal_of_bound_state (sweep.bound bridge id outside.2),
      signal_of_bound_state (lowering.bound_state bridge (.object id))]
    exact mirrors.signals bridge id outside.1
  · apply reflects.garbage.union sweep.garbage sweep.live
    · exact mirrors.alive_iff
    · exact fun id remains => (mirrors.references remains).symm
    · exact fun id outside => mirrors.holds paired also outside
    · intro id
      have same := lowering.alive id
      exact iff_of_eq (congrArg (· = true) same)
    · intro id _
      have less : lowered.graph.count id = deferred.references id - given.count (.object id) :=
        lowering.references id
      have few := enough id
      have counts : deferred.graph.count id = deferred.references id := rfl
      omega
    · exact holds

theorem swept_nothing {world : World} (paired : world.Paired) (unspent : ∀ id, ¬world.Spent id) :
    world.Swept [] ∅ world where
  garbage := by
    refine ⟨?_, fun _ _ => Finset.empty_subset _⟩
    intro id alive few
    have some : 0 < world.graph.count id := references_pos alive (unspent id)
    simp only [List.count_nil, RefGraph.held_by_empty] at few
    omega
  live := by simp
  removed := by simp
  survives := by
    intro id object _ found
    have some : object.refCount ≠ 0 := fun none => unspent id ⟨object, found, none⟩
    simp only [List.count_nil, RefGraph.held_by_empty]
    exact ⟨Nat.pos_of_ne_zero some, found⟩
  missing := fun _ missing => missing
  bound := fun _ _ _ => rfl
  states := by simp
  total := by simp
  setting := .refl world
  paired := paired

theorem Swept.unspent {world after : World} (swept : world.Swept given dead after) (id : ObjectId) :
    ¬after.Spent id := by
  rintro ⟨object, found, none⟩
  by_cases member : id ∈ dead
  · rw [get_of_dead (swept.removed id member)] at found
    cases found
  cases reached : world.engine.heap.get? id with
  | none =>
      rw [swept.missing id reached] at found
      cases found
  | some before =>
      obtain ⟨enough, now⟩ := swept.survives id before member reached
      rw [now] at found
      cases found
      dsimp only at none
      omega

section Collections

variable {collected other : World}

/-- Without the waste, and without what it held, the objects are the same. -/
theorem Reflects.same_objects (reflects : deferred.Reflects immediate waste)
    (collection : deferred.Swept [] waste collected) (idle : immediate.Swept [] ∅ other)
    (id : ObjectId) : (collected.engine.heap.get? id).map Object.bare =
      (other.engine.heap.get? id).map Object.bare := by
  have mirrors := reflects.mirrors
  by_cases member : id ∈ waste
  · rw [get_of_dead (collection.removed id member), idle.missing id (mirrors.gone id member)]
  cases found : immediate.engine.heap.get? id with
  | none => rw [collection.missing id (mirrors.missing member found), idle.missing id found]
  | some object =>
      obtain ⟨full, reached, alike⟩ := mirrors.found member found
      obtain ⟨-, now⟩ := collection.survives id full member reached
      obtain ⟨-, same⟩ := idle.survives id object (by simp) found
      have counts := (Object.parts_of_laden alike).1
      have less : full.refCount - (deferred.graph.heldBy waste id + [].count (Value.object id)) =
          object.refCount - (immediate.graph.heldBy ∅ id + [].count (Value.object id)) + 0 := by
        simp only [List.count_nil, RefGraph.held_by_empty]
        omega
      rw [now, same]
      exact congrArg some (Object.laden_of_counts alike less)

/-- A collection in both worlds removes the waste of the one and nothing of the other. -/
theorem Reflects.collect {rest : Finset ObjectId} (reflects : deferred.Reflects immediate waste)
    (unspent : ∀ id, ¬immediate.Spent id) (collection : deferred.Swept [] dead collected)
    (idle : immediate.Swept [] rest other) (also : immediate.Paired)
    (client : other.client = collected.client) : collected.Reflects other ∅ := by
  have mirrors := reflects.mirrors
  have same := reflects.garbage.unique collection.garbage
  subst same
  have nothing := idle.garbage.unique (swept_nothing also unspent).garbage
  subst nothing
  refine ⟨⟨?_, client, ?_, by simp, by simp, fun _ _ => rfl, fun _ _ _ => rfl, ?_, ?_⟩,
    (swept_nothing collection.paired collection.unspent).garbage⟩
  · exact mirrors.setting.square collection.setting idle.setting client
  · rw [collection.total, idle.total, mirrors.total]
  · intro id _
    rw [RefGraph.held_by_empty]
    exact reflects.same_objects collection idle id
  · intro bridge id _
    have kept := signal_of_bound_state (idle.bound bridge id (by simp))
    by_cases member : id ∈ waste
    · rw [signal_of_dead (collection.removed id member), kept]
      apply signal_of_dead
      simp [isAlive, object?, Value.object?, mirrors.gone id member]
    · rw [kept, signal_of_bound_state (collection.bound bridge id member)]
      exact mirrors.signals bridge id member

end Collections

end Waste

end World

end ScriptSignal
