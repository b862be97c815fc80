import ScriptSignal.Proofs.Settling
import ScriptSignal.Proofs.Signals

/-!
# What a finalizer takes

In a world of Signals a finalizer takes one state out of one table and the key of that
state out of one slot, or does nothing. What it leaves to be given back is what the state
held. All other handles keep their states, and slots and tables go on to agree.
-/

namespace ScriptSignal

set_option autoImplicit false

namespace World

variable {world before after : World}

theorem run_finalizer_of_bound (tidy : world.Tidy) {bridgeId : BridgeId} {id : ObjectId} {key : Key}
    (bound : world.boundKey bridgeId (.object id) = .ok key) :
    world.runFinalizer id = world.finalizeSignal bridgeId (.object id) := by
  obtain ⟨bridge, found, slot⟩ := bound_key_eq_ok.1 bound
  obtain ⟨proto, record⟩ := tidy.served bridgeId bridge found
  simp only [runFinalizer, class_of_slot_key slot, Option.bind_some, record]
  rfl

/-- What a finalizer does: nothing that matters to an object that is not bound, and a bound
one loses its key and its state. -/
theorem Paired.finalizer_cases (paired : world.Paired) (tidy : world.Tidy) (id : ObjectId) :
    (world.runFinalizer id = (world, []) ∨
        world.runFinalizer id = (world.emit .unboundFinalize, [])) ∧
        (∀ bridge key state, world.boundState bridge (.object id) ≠ .ok (key, state)) ∨
      ∃ bridge key state, world.boundState bridge (.object id) = .ok (key, state) ∧
        world.runFinalizer id =
          (((world.bindHandle bridge (.object id) none).modifyStates bridge fun states =>
              states.erase key).emit (.finalized key state.callback.isSome),
            state.held.map .drop) := by
  by_cases some : ∃ bridge key state, world.boundState bridge (.object id) = .ok (key, state)
  · right
    obtain ⟨bridge, key, state, bound⟩ := some
    rw [run_finalizer_of_bound tidy (bound_state_eq_ok_iff.1 bound).1]
    rcases paired.finalize_cases bridge (.object id) with ⟨-, unbound⟩ | ⟨found, held, there, same⟩
    · exact absurd bound (unbound key state)
    · exact ⟨bridge, found, held, there, same⟩
  · left
    have unbound : ∀ bridge key state, world.boundState bridge (.object id) ≠ .ok (key, state) :=
      fun bridge key state bound => some ⟨bridge, key, state, bound⟩
    refine ⟨?_, unbound⟩
    rcases run_finalizer_cases tidy id with same | ⟨bridge, same⟩
    · exact .inl same
    · right
      rw [same]
      rcases paired.finalize_cases bridge (.object id) with ⟨quiet, -⟩ | ⟨key, state, bound, -⟩
      · exact quiet
      · exact absurd bound (unbound bridge key state)

theorem paired_run_finalizer (paired : world.Paired) (tidy : world.Tidy) (id : ObjectId) :
    (world.runFinalizer id).1.Paired := by
  have emitted : ∀ (world : World) (event : Event), world.Paired → (world.emit event).Paired :=
    fun world event paired => paired.of_bridges (fun _ => rfl) fun _ _ => rfl
  rcases paired.finalizer_cases tidy id with ⟨same | same, -⟩ | ⟨bridge, key, state, bound, same⟩
  · rw [same]
    exact paired
  · rw [same]
    exact emitted _ _ paired
  · rw [same]
    exact emitted _ _ (paired_erase paired (bound_state_eq_ok_iff.1 bound).1)

theorem bound_state_run_finalizer (paired : world.Paired) (tidy : world.Tidy) (id : ObjectId)
    (bridge : BridgeId) (value : Value) (key : Key) (state : SignalState) :
    (world.runFinalizer id).1.boundState bridge value = .ok (key, state) ↔
      value ≠ .object id ∧ world.boundState bridge value = .ok (key, state) := by
  have idle : (∀ bridge key state, world.boundState bridge (.object id) ≠ .ok (key, state)) →
      (world.boundState bridge value = .ok (key, state) ↔
        value ≠ .object id ∧ world.boundState bridge value = .ok (key, state)) := by
    intro unbound
    refine ⟨fun bound => ⟨?_, bound⟩, And.right⟩
    rintro rfl
    exact unbound bridge key state bound
  rcases paired.finalizer_cases tidy id with
    ⟨same | same, unbound⟩ | ⟨place, held, old, bound, same⟩
  · rw [same]
    exact idle unbound
  · rw [same]
    exact idle unbound
  · rw [same]
    exact bound_state_erase paired bound bridge value key state

theorem state_run_finalizer (paired : world.Paired) (tidy : world.Tidy) (id : ObjectId)
    (bridge : BridgeId) (key : Key) (state : SignalState) :
    (world.runFinalizer id).1.state? bridge key = some state ↔
      world.state? bridge key = some state ∧
        world.boundState bridge (.object id) ≠ .ok (key, state) := by
  rcases paired.finalizer_cases tidy id with
    ⟨same | same, unbound⟩ | ⟨place, held, old, bound, same⟩
  · rw [same]
    exact ⟨fun there => ⟨there, unbound bridge key state⟩, And.left⟩
  · rw [same]
    exact ⟨fun there => ⟨there, unbound bridge key state⟩, And.left⟩
  · rw [same]
    refine (state_erase bridge key state).trans (and_congr_right fun there => not_congr ?_)
    rw [bound_state_eq_ok_iff] at bound ⊢
    constructor
    · rintro ⟨rfl, rfl⟩
      exact ⟨bound.1, there⟩
    · rintro ⟨slot, -⟩
      have place := paired.bridge_of_bound bound.1 slot
      subst place
      rw [bound.1] at slot
      exact ⟨rfl, (Except.ok.inj slot).symm⟩

theorem get_bind_handle (bridge : BridgeId) (id other : ObjectId) (key : Option Key) :
    ∃ rekind : ObjectKind → ObjectKind,
      (world.bindHandle bridge (.object id) key).engine.heap.get? other =
          (world.engine.heap.get? other).map (fun object =>
            { object with kind := rekind object.kind }) ∧
        (other ≠ id → ∀ kind, rekind kind = kind) := by
  have unchanged : world.engine.heap.get? other = (world.engine.heap.get? other).map (fun object =>
      { object with kind := object.kind }) := Option.map_id'.symm
  rcases bind_handle_cases world bridge (.object id) key with kept | ⟨held, -, written⟩
  · rw [kept]
    exact ⟨fun kind => kind, unchanged, fun _ _ => rfl⟩
  · rw [written]
    rcases set_slot_cases world (.object id) held.classId key with
      ⟨kept, -⟩ | ⟨place, old, slot, here, found, -, kept⟩
    · rw [kept]
      exact ⟨fun kind => kind, unchanged, fun _ _ => rfl⟩
    · rw [kept]
      cases here
      by_cases same : other = id
      · subst same
        refine
          ⟨fun _ => .native held.classId (key.map Key.toBits), ?_, fun apart => absurd rfl apart⟩
        rw [found]
        exact Heap.get_put_same found _
      · exact ⟨fun kind => kind, (Heap.get_put_other _ same _).trans unchanged, fun _ _ => rfl⟩

theorem get_run_finalizer (paired : world.Paired) (tidy : world.Tidy) (id other : ObjectId) :
    ∃ rekind : ObjectKind → ObjectKind,
      (world.runFinalizer id).1.engine.heap.get? other =
          (world.engine.heap.get? other).map (fun object =>
            { object with kind := rekind object.kind }) ∧
        (other ≠ id → ∀ kind, rekind kind = kind) := by
  have unchanged : ∃ rekind : ObjectKind → ObjectKind, world.engine.heap.get? other =
      (world.engine.heap.get? other).map (fun object =>
        { object with kind := rekind object.kind }) ∧ (other ≠ id → ∀ kind, rekind kind = kind) :=
    ⟨fun kind => kind, Option.map_id'.symm, fun _ _ => rfl⟩
  rcases paired.finalizer_cases tidy id with
    ⟨same | same, -⟩ | ⟨bridge, key, state, -, same⟩
  · rw [same]
    exact unchanged
  · rw [same]
    exact unchanged
  · rw [same]
    exact get_bind_handle bridge id other none

/-- Whichever bridge an object is a Signal of, its finalizer takes its state and no other. -/
theorem signal_run_finalizer (paired : world.Paired) (tidy : world.Tidy) (id : ObjectId)
    (other : BridgeId) (value : Value) :
    (world.runFinalizer id).1.signal? other value =
      if value = .object id then none else world.signal? other value := by
  apply Option.ext
  intro state
  have after : (world.runFinalizer id).1.signal? other value = some state ↔
      value ≠ .object id ∧ world.signal? other value = some state := by
    simp [signal_eq_some_iff, bound_state_run_finalizer paired tidy]
  refine after.trans ?_
  split
  · rename_i same
    simp [same]
  · rename_i different
    simp [different]

end World

end ScriptSignal
