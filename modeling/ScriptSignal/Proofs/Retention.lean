import ScriptSignal.Proofs.Registrations

/-!
# Operations that leave classes and slots alone

Most operations leave the registry as it is and every object of the kind it was, except that objects
come and go. Where nothing may be inscribed, that is so of every move, and therefore of all that is
made of moves.
-/

namespace ScriptSignal

set_option autoImplicit false

namespace World

/-- The registry stays, and so does the kind of every object that stays. A new object has an empty
slot if it is the instance of a class, which is defined. -/
structure Retains (before after : World) : Prop where
  registry : after.engine.registry = before.engine.registry
  size : before.size ≤ after.size
  kinds : ∀ value kind, after.kind? value = some kind →
    before.kind? value = some kind ∨
      ¬value.Within before.size ∧ kind.Unbound before.engine.registry

section Retains

variable {before world after : World}

theorem kind_of_engine (same : after.engine = world.engine) (value : Value) :
    after.kind? value = world.kind? value := by
  unfold kind? object?
  rw [same]

theorem Retains.of_engine (same : after.engine = before.engine) : Retains before after where
  registry := by rw [same]
  size := by simp [World.size, same]
  kinds := fun value _ found => .inl ((kind_of_engine same value).symm.trans found)

theorem Retains.refl (world : World) : Retains world world := .of_engine rfl

theorem Retains.trans (first : Retains before world) (last : Retains world after) :
    Retains before after where
  registry := last.registry.trans first.registry
  size := Nat.le_trans first.size last.size
  kinds := by
    intro value kind found
    rcases last.kinds value kind found with old | ⟨beyond, unbound⟩
    · exact first.kinds value kind old
    · rw [first.registry] at unbound
      exact .inr ⟨fun within => beyond (within.mono first.size), unbound⟩

theorem Retains.besides (retains : Retains before world) (same : after.engine = world.engine) :
    Retains before after :=
  retains.trans (.of_engine same)

theorem retains_put {id : ObjectId} {object changed : Object}
    (found : world.engine.heap.get? id = some object) (same : changed.kind = object.kind) :
    Retains world (world.putObject id changed) where
  registry := rfl
  size := Nat.le_of_eq (size_put world id changed).symm
  kinds := fun value _ after => .inl ((kind_put found same value).symm.trans after)

theorem next_beyond (world : World) : ¬world.nextValue.Within world.size :=
  Nat.lt_irrefl world.size

theorem retains_allocate {kind : ObjectKind} (unbound : kind.Unbound world.engine.registry)
    (proto : Option ObjectId) : Retains world (world.allocate kind proto) where
  registry := rfl
  size := by
    rw [size_allocate]
    exact Nat.le_succ _
  kinds := by
    intro value found after
    rw [kind_allocate] at after
    split at after
    · rename_i new
      cases after
      exact .inr ⟨new ▸ next_beyond world, unbound⟩
    · exact .inl after

theorem retains_release (world : World) (value : Value) :
    Retains world (world.release value).1 := by
  unfold release
  split
  · unfold releaseObject
    split
    · exact .of_engine rfl
    · rename_i object found
      split
      · exact .of_engine rfl
      · rename_i count counted
        have lowered : Retains world
            (world.putObject _ { object with refCount := count }) := retains_put found rfl
        dsimp only
        split
        · split
          · exact lowered
          · exact ⟨lowered.registry, lowered.size, lowered.kinds⟩
        · exact lowered
  · exact .refl world

theorem retains_remove_object (world : World) (id : ObjectId) :
    Retains world (world.removeObject id).1 where
  registry := registry_remove_object world id
  size := by
    unfold removeObject
    split
    · exact Nat.le_refl _
    · simp [World.size, emit, Heap.remove]
  kinds := by
    intro value kind found
    rw [kind_remove_object] at found
    split at found
    · cases found
    · exact .inl found

theorem retains_drain (world : World) (count : Nat) : Retains world (world.drain count).1 := by
  unfold drain
  split
  · exact ⟨rfl, Nat.le_refl _, fun _ _ found => .inl found⟩
  · dsimp only
    split
    · exact .of_engine rfl
    · exact .refl world

theorem retains_end_call (world : World) (id : BridgeId) : Retains world (world.endCall id).1 := by
  have ended : Retains world
      (world.modifyBridge id fun bridge => { bridge with active := bridge.active - 1 }) :=
    .of_engine rfl
  exact ended.besides (Machine.engine_settle_bridge _ id)

end Retains

end World

/-- Where nothing may be inscribed, moves leave classes and slots alone. -/
theorem Move.retains {grasp after : Grasp} (move : Move False grasp after) :
    World.Retains grasp.world after.world := by
  cases move with
  | put found counted proto kind => exact World.retains_put found (kind.resolve_right id)
  | @allocate kind proto running unbound older => exact World.retains_allocate unbound proto
  | register inscribed running served => exact inscribed.elim
  | _ => exact .of_engine rfl

theorem Moves.retains {grasp after : Grasp} (moves : Moves False grasp after) :
    World.Retains grasp.world after.world := by
  induction moves with
  | refl => exact .refl _
  | tail _ move induction => exact induction.trans move.retains

theorem Outcome.Moves.retains {world : World} {clutched : List Value} {begun : List BridgeId}
    {outcome : Outcome} (moves : outcome.Moves False world clutched begun) :
    World.Retains world outcome.1 :=
  (moves.moves [] [] []).retains

end ScriptSignal
