import Mathlib.Data.Finset.Card
import Mathlib.Data.Finset.Range
import Mathlib.Data.List.Induction
import ScriptSignal.Proofs.Attained

/-!
# Objects that leave the heap

A turn takes references off an object, takes an object out, takes one from the backlog or ends
the engine, and otherwise it is gentle. An object that has left the heap never comes back, so
whoever counts the objects that leave counts each of them once.
-/

namespace ScriptSignal

set_option autoImplicit false

namespace World

def departed (world : World) : Finset Nat :=
  (Finset.range world.size).filter fun index => (world.engine.heap.get? ⟨index⟩).isNone

theorem mem_departed_iff {world : World} {id : ObjectId} :
    id.index ∈ world.departed ↔ world.Gone id := by
  simp [departed, Gone]

theorem departed_eq_of_gone {before after : World}
    (gone : ∀ id, after.Gone id ↔ before.Gone id) : after.departed = before.departed := by
  ext index
  exact mem_departed_iff.trans ((gone ⟨index⟩).trans mem_departed_iff.symm)

theorem count_places (places : List (Option Object)) :
    places.countP Option.isSome
      + ((Finset.range places.length).filter fun index => ((places[index]?).join).isNone).card =
        places.length := by
  induction places using List.reverseRecOn with
  | nil => rfl
  | append_singleton places place induction =>
      have same : ((Finset.range places.length).filter fun index =>
          (((places ++ [place])[index]?).join).isNone) =
            (Finset.range places.length).filter fun index => ((places[index]?).join).isNone := by
        apply Finset.filter_congr
        intro index inside
        rw [List.getElem?_append_left (Finset.mem_range.1 inside)]
      have last : ((places ++ [place])[places.length]?).join = place := by simp
      rw [List.length_append, List.length_singleton, Finset.range_add_one, Finset.filter_insert,
        last, same, List.countP_append, List.countP_singleton]
      have outside : places.length ∉
          (Finset.range places.length).filter fun index => ((places[index]?).join).isNone := by
        simp
      cases place with
      | none =>
          rw [Option.isNone_none, if_pos rfl, Finset.card_insert_of_notMem outside]
          simp only [Option.isSome_none, Bool.false_eq_true, if_false]
          omega
      | some object =>
          rw [Option.isNone_some, if_neg Bool.false_ne_true]
          simp only [Option.isSome_some, if_true]
          omega

/-- Every object that was allocated is alive or has left the heap. -/
theorem live_add_departed (world : World) :
    world.engine.heap.live + world.departed.card = world.size := by
  have count := count_places world.engine.heap.places.toList
  have live : world.engine.heap.live = world.engine.heap.places.toList.countP Option.isSome :=
    (Array.countP_toList ..).symm
  rw [live]
  simpa [departed, size, Heap.get?] using count

inductive Deed (world : World) : Task → World → Prop
  | gentle {task : Task} {after : World} (gentle : Gentle world after) : Deed world task after
  | release (value : Value) : Deed world (.release value) (world.release value).1
  | remove (id : ObjectId) : Deed world (.remove id) (world.removeObject id).1
  | drain (count : Nat) : Deed world (.drain count) (world.drain count).1
  | shutDown (label : String) (keep : Option String) :
      Deed world (.perform (.act label .shutDown keep))
        { world with engine := .stopped world.engine.mode }

structure SameObjects (before after : World) : Prop where
  mode : after.engine.mode = before.engine.mode
  finalized : after.engine.finalized = before.engine.finalized
  size : before.size ≤ after.size
  gone : ∀ id, after.Gone id ↔ before.Gone id

section Deeds

variable {world after : World} {task : Task}

theorem same_objects_recount {id : ObjectId} {object : Object}
    (found : world.engine.heap.get? id = some object) (count : Nat) :
    SameObjects world (world.recount id object count) := by
  refine ⟨rfl, rfl, Nat.le_of_eq (size_put world id _).symm, ?_⟩
  intro other
  unfold Gone recount
  rw [size_put]
  by_cases same : other = id
  · subst same
    have written : (world.putObject other { object with refCount := count }).engine.heap.get?
        other = some { object with refCount := count } := Heap.get_put_same found _
    simp [written, found]
  · have kept : (world.putObject id { object with refCount := count }).engine.heap.get? other =
        world.engine.heap.get? other := Heap.get_put_other _ same _
    rw [kept]

theorem same_objects_release (value : Value) : SameObjects world (world.release value).1 := by
  have still : SameObjects world world := ⟨rfl, rfl, Nat.le_refl _, fun _ => .rfl⟩
  cases value with
  | object id =>
      by_cases held : 0 < world.references id
      · obtain ⟨object, count, found, counted⟩ := object_of_references held
        have counts := same_objects_recount found count
        rcases release_cases found counted with ⟨-, same⟩ | ⟨-, -, same⟩ | ⟨-, same⟩
        · rw [same]
          exact counts
        · rw [same]
          exact ⟨counts.mode, counts.finalized, counts.size, counts.gone⟩
        · rw [same]
          exact counts
      · obtain ⟨event, same⟩ := release_of_unreferenced (Nat.eq_zero_of_not_pos held)
        rw [same]
        exact ⟨rfl, rfl, Nat.le_refl _, fun _ => .rfl⟩
  | _ => exact still

theorem same_objects_drain (count : Nat) : SameObjects world (world.drain count).1 := by
  unfold drain
  split
  · exact ⟨rfl, rfl, Nat.le_refl _, fun _ => .rfl⟩
  · dsimp only
    split <;> exact ⟨rfl, rfl, Nat.le_refl _, fun _ => .rfl⟩

theorem Gentle.same_objects (gentle : Gentle world after) : SameObjects world after :=
  ⟨gentle.mode, gentle.finalized, gentle.size, gentle.gone⟩

/-- While the engine runs, an object leaves the heap by being removed, and is counted. -/
theorem Deed.departs (deed : Deed world task after) (running : after.engine.running = true) :
    SameObjects world after ∨ ∃ id object, task = .remove id ∧
      world.engine.heap.get? id = some object ∧ after.size = world.size ∧
      after.departed = insert id.index world.departed ∧
      after.engine.finalized = world.engine.finalized + 1 := by
  cases deed with
  | gentle gentle => exact .inl gentle.same_objects
  | release value => exact .inl (same_objects_release value)
  | drain count => exact .inl (same_objects_drain count)
  | shutDown label keep => cases running
  | remove id =>
      rcases remove_object_cases world id with ⟨missing, same⟩ | ⟨object, found, same⟩
      · rw [same]
        exact .inl ⟨rfl, rfl, Nat.le_refl _, fun _ => .rfl⟩
      · rw [same]
        have size : (world.without id).size = world.size := by
          simp [World.size, without, Heap.remove]
        refine .inr ⟨id, object, rfl, found, size, ?_, rfl⟩
        ext index
        rw [Finset.mem_insert]
        change index ∈ (world.without id).departed ↔ _
        by_cases here : index = id.index
        · have missing : (world.without id).engine.heap.get? id = none :=
            Heap.get_remove_same _ id
          have inside := Heap.index_lt_of_get found
          rw [here]
          exact iff_of_true (mem_departed_iff.2 ⟨size ▸ inside, missing⟩) (.inl rfl)
        · have apart : (⟨index⟩ : ObjectId) ≠ id := fun same => here (congrArg ObjectId.index same)
          have kept : (world.without id).engine.heap.get? ⟨index⟩ =
              world.engine.heap.get? ⟨index⟩ := Heap.get_remove_other _ apart
          simp [departed, size, kept, here]

theorem Deed.mode (deed : Deed world task after) :
    after.engine.mode = world.engine.mode := by
  cases deed with
  | gentle gentle => exact gentle.mode
  | release value => exact (same_objects_release value).mode
  | drain count => exact (same_objects_drain count).mode
  | shutDown label keep => rfl
  | remove id =>
      rcases remove_object_cases world id with ⟨-, same⟩ | ⟨object, -, same⟩
      · rw [same]
      · rw [same]
        rfl

theorem Deed.gone (deed : Deed world task after) (running : after.engine.running = true)
    {id : ObjectId} (gone : world.Gone id) : after.Gone id := by
  rcases deed.departs running with same | ⟨removed, object, -, -, -, departed, -⟩
  · exact (same.gone id).2 gone
  · rw [← mem_departed_iff] at gone ⊢
    rw [departed]
    exact Finset.mem_insert_of_mem gone

end Deeds

end World

namespace Machine

section Turns

variable {machine after : Machine} {rest : List Task} {task : Task}

theorem Turn.deed (turn : Turn machine rest task after) :
    World.Deed machine.world task after.world := by
  cases turn with
  | moved moves bare spares world agenda callers =>
      exact .gentle (world ▸ (moves.moves [] [] []).gentle)
  | leave moves agenda callers => exact .gentle (moves.moves [] [] []).gentle
  | steps steps scripted world agenda callers => exact .gentle (world ▸ .refl _)
  | enter world agenda callers => exact .gentle (world ▸ .refl _)
  | collect world agenda callers => exact .gentle (world ▸ .refl _)
  | release world agenda callers =>
      rw [world]
      exact .release _
  | drop world agenda callers =>
      rw [world]
      exact .gentle (World.gentle_of_engine (World.engine_drop_reference _ _))
  | reclaim found last world agenda callers =>
      rw [world]
      exact .gentle
        ((@World.moves_run_finalizer True machine.world [] trivial _).moves [] [] []).gentle
  | remove world agenda callers =>
      rw [world]
      exact .remove _
  | drain world agenda callers =>
      rw [world]
      exact .drain _
  | settle world agenda callers =>
      rw [world]
      exact .gentle (World.gentle_of_engine (engine_settle_bridge _ _))
  | endCall world agenda callers =>
      rw [world]
      exact .gentle (World.gentle_of_engine (engine_settle_bridge _ _))
  | shutDown alone world agenda callers =>
      rw [world]
      exact .shutDown _ _

theorem Attained.deed (attained : machine.Attained) :
    World.Gentle machine.world machine.step.world ∨
      ∃ task rest, machine.agenda = task :: rest ∧
        World.Deed machine.world task machine.step.world := by
  cases shape : machine.agenda with
  | nil =>
      rw [step_of_nil shape]
      exact .inl (.refl _)
  | cons task rest => exact .inr ⟨task, rest, rfl, (attained.kept.turn shape).deed⟩

theorem Attained.gone_step (attained : machine.Attained)
    (running : machine.step.world.engine.running = true) {id : ObjectId}
    (gone : machine.world.Gone id) : machine.step.world.Gone id := by
  rcases attained.deed with gentle | ⟨task, rest, -, deed⟩
  · exact (gentle.gone id).2 gone
  · exact deed.gone running gone

end Turns

end Machine

end ScriptSignal
