import ScriptSignal.Proofs.Commands

/-!
# Signals that are still bound

Where every finalizer is that of a bridge, references are given back without any script. Objects
are finalized and removed one after the other, and with them keys and states go; but no handle is
bound anew, and no state is written. So whoever is bound when all is done has been bound to the
same state from the beginning.
-/

namespace ScriptSignal

set_option autoImplicit false

def Task.Sheds : Task → Prop
  | .release _ | .drop _ | .reclaim _ | .remove _ | .report _ | .endCall _ | .settle _
  | .answer _ | .finish _ => True
  | _ => False

namespace World

/-- Who is bound afterwards was bound before, by the same key and to the same state. -/
structure Sheds (before after : World) : Prop where
  bound : ∀ id value found, after.boundState id value = .ok found →
    before.boundState id value = .ok found
  registry : after.engine.registry = before.engine.registry

def Scriptless (world : World) : Prop :=
  ∀ classId record, world.engine.registry.record? classId = some record →
    ∃ bridge, record.finalizer = .signal bridge

section Shedding

variable {before world after : World}

theorem Sheds.refl (world : World) : Sheds world world := ⟨fun _ _ _ bound => bound, rfl⟩

theorem Sheds.trans (first : Sheds before world) (last : Sheds world after) :
    Sheds before after where
  bound := fun id value found bound => first.bound id value found (last.bound id value found bound)
  registry := last.registry.trans first.registry

theorem Scriptless.of_sheds (scriptless : world.Scriptless) (sheds : Sheds world after) :
    after.Scriptless := by
  unfold Scriptless
  rw [sheds.registry]
  exact scriptless

theorem sheds_emit (world : World) (event : Event) : Sheds world (world.emit event) :=
  ⟨fun _ _ _ bound => bound, rfl⟩

theorem sheds_of_less (registry : after.engine.registry = world.engine.registry)
    (slots : ∀ value classId key, after.slotKey? value classId = some key →
      world.slotKey? value classId = some key)
    (tables : ∀ id later, after.bridge? id = some later → ∃ bridge,
      world.bridge? id = some bridge ∧ later.classId = bridge.classId ∧
        ∀ key state, later.states.get? key = some state → bridge.states.get? key = some state) :
    Sheds world after := by
  refine ⟨?_, registry⟩
  rintro id value ⟨key, state⟩ bound
  obtain ⟨reached, held⟩ := bound_state_eq_ok_iff.1 bound
  obtain ⟨later, found, slot⟩ := bound_key_eq_ok.1 reached
  obtain ⟨bridge, foundBefore, sameClass, states⟩ := tables id later found
  refine bound_state_eq_ok_iff.2 ⟨bound_key_eq_ok.2 ⟨bridge, foundBefore, ?_⟩, ?_⟩
  · rw [← sameClass]
    exact slots value later.classId key slot
  · simp only [state?, found, foundBefore, Option.bind_some] at held ⊢
    exact states key state held

theorem sheds_release (world : World) (value : Value) :
    Sheds world (world.release value).1 := by
  have lowered := lowered_release world value
  refine ⟨fun id other found bound => ?_, lowered.setting.registry⟩
  rwa [lowered.bound_state] at bound

theorem sheds_modify_bridge (world : World) (id : BridgeId) {change : Bridge → Bridge}
    (less : ∀ bridge, (change bridge).classId = bridge.classId ∧
      ∀ key state, (change bridge).states.get? key = some state →
        bridge.states.get? key = some state) :
    Sheds world (world.modifyBridge id change) := by
  refine sheds_of_less rfl (fun _ _ _ slot => slot) ?_
  intro other later found
  rw [bridge_modify] at found
  split at found
  · rename_i here
    subst here
    obtain ⟨bridge, reached, rfl⟩ := Option.map_eq_some_iff.1 found
    exact ⟨bridge, reached, less bridge⟩
  · exact ⟨later, found, rfl, fun _ _ held => held⟩

theorem sheds_unbind (world : World) (id : BridgeId) (handle : Value) :
    Sheds world (world.bindHandle id handle none) := by
  refine sheds_of_less (same_setting_bind_handle world id handle none).registry ?_ ?_
  · intro value classId key slot
    rcases bind_handle_cases world id handle none with same | ⟨held, -, same⟩
    · rwa [same] at slot
    · rw [same, slot_key_set_slot] at slot
      split at slot
      · cases slot
      · exact slot
  · intro other later found
    rw [bridge_bind_handle] at found
    exact ⟨later, found, rfl, fun _ _ held => held⟩

theorem sheds_erase (world : World) (id : BridgeId) (key : Key) :
    Sheds world (world.modifyStates id fun states => states.erase key) := by
  refine sheds_modify_bridge world id fun bridge => ⟨rfl, fun other state held => ?_⟩
  dsimp only at held
  rw [Slab.get_erase] at held
  split at held
  · cases held
  · exact held

theorem sheds_finalize_signal (world : World) (id : BridgeId) (handle : Value) :
    Sheds world (world.finalizeSignal id handle).1 := by
  have unbinds := sheds_unbind world id handle
  rcases finalize_signal_cases world id handle with
    ⟨same, -⟩ | ⟨key, state, -, -, same⟩ | ⟨key, -, -, same⟩
  · rw [same]
    exact sheds_emit world _
  · rw [same]
    exact (unbinds.trans (sheds_erase _ id key)).trans (sheds_emit _ _)
  · rw [same]
    exact unbinds.trans (sheds_emit _ _)

theorem sheds_remove_object (world : World) (id : ObjectId) :
    Sheds world (world.removeObject id).1 := by
  refine sheds_of_less ?_ ?_ ?_
  · rcases remove_object_cases world id with ⟨-, same⟩ | ⟨object, -, same⟩
    · rw [same]
    · rw [same]
      rfl
  · intro value classId key slot
    rw [slot_key_remove_object] at slot
    split at slot
    · cases slot
    · exact slot
  · intro other later found
    rw [bridge_remove_object] at found
    exact ⟨later, found, rfl, fun _ _ held => held⟩

theorem sheds_settle_bridge (world : World) (id : BridgeId) :
    Sheds world (world.settleBridge id).1 := by
  have emptied : Sheds world (world.modifyStates id Slab.clear) := by
    refine sheds_modify_bridge world id fun bridge => ⟨rfl, fun key state held => ?_⟩
    rw [Slab.get_clear] at held
    cases held
  unfold settleBridge
  split
  · exact .refl world
  · dsimp only
    split
    · exact emptied
    · exact emptied.trans (sheds_emit _ _)

/-- The finalizer of a class takes a key and a state at most, and runs no script. -/
theorem Scriptless.run_finalizer (scriptless : world.Scriptless) (id : ObjectId) :
    Sheds world (world.runFinalizer id).1 ∧ ∀ task ∈ (world.runFinalizer id).2, task.Sheds := by
  unfold runFinalizer
  split
  · exact ⟨.refl world, by simp⟩
  · rename_i record found
    obtain ⟨classId, -, defined⟩ := Option.bind_eq_some_iff.1 found
    obtain ⟨bridge, finalizer⟩ := scriptless classId record defined
    simp only [finalizer]
    refine ⟨sheds_finalize_signal world bridge (.object id), fun task member => ?_⟩
    obtain ⟨held, rfl⟩ := drops_of_finalize_signal world bridge (.object id) task member
    trivial

theorem Scriptless.reclaim (scriptless : world.Scriptless) (id : ObjectId) :
    Sheds world (world.reclaim id).1 ∧ ∀ task ∈ (world.reclaim id).2, task.Sheds := by
  obtain ⟨sheds, tasks⟩ := scriptless.run_finalizer id
  unfold World.reclaim
  split
  · exact ⟨.refl world, by simp⟩
  · split
    · refine ⟨sheds, fun task member => ?_⟩
      rcases List.mem_append.1 member with early | last
      · exact tasks task early
      · cases List.mem_singleton.1 last
        trivial
    · exact ⟨sheds_emit world _, by simp⟩

end Shedding

end World

namespace Machine

section Shedding

variable {machine later : Machine} {rest front : List Task} {task : Task}

theorem sheds_step (scriptless : machine.world.Scriptless) (shape : machine.agenda = task :: rest)
    (sheds : task.Sheds) :
    World.Sheds machine.world machine.step.world ∧
      ∃ tasks, machine.step.agenda = tasks ++ rest ∧ ∀ next ∈ tasks, next.Sheds := by
  have dropping : ∀ {tasks : List Task}, (∀ next ∈ tasks, ∃ held, next = Task.drop held) →
      ∀ next ∈ tasks, next.Sheds := by
    intro tasks drops next member
    obtain ⟨held, rfl⟩ := drops next member
    trivial
  rw [step_of_cons shape]
  cases task with
  | release value =>
      refine ⟨World.sheds_release machine.world value, _, rfl, fun next member => ?_⟩
      obtain ⟨id, -, -, rfl⟩ := World.task_of_release member
      trivial
  | drop held =>
      refine ⟨?_, _, rfl, fun next member => ?_⟩
      · change World.Sheds machine.world (machine.world.dropReference held).1
        unfold World.dropReference
        split <;> exact World.sheds_emit machine.world _
      · cases World.task_of_drop_reference member
        trivial
  | reclaim id =>
      obtain ⟨less, tasks⟩ := scriptless.reclaim id
      exact ⟨less, _, rfl, tasks⟩
  | remove id =>
      refine ⟨World.sheds_remove_object machine.world id, _, rfl, fun next member => ?_⟩
      obtain ⟨value, rfl⟩ := releases_of_remove_object machine.world id next member
      trivial
  | report event => exact ⟨World.sheds_emit machine.world event, [], rfl, by simp⟩
  | endCall id =>
      have ended := @World.sheds_modify_bridge machine.world id
        (fun bridge => { bridge with active := bridge.active - 1 })
        fun bridge => ⟨rfl, fun _ _ held => held⟩
      exact ⟨ended.trans (World.sheds_settle_bridge _ id), _, rfl,
        dropping (World.drops_of_settle_bridge _ id)⟩
  | settle id =>
      exact ⟨World.sheds_settle_bridge machine.world id, _, rfl,
        dropping (World.drops_of_settle_bridge _ id)⟩
  | answer reply =>
      obtain ⟨agenda, -⟩ := parts_answer { machine with agenda := rest } reply
      refine ⟨?_, [], agenda, by simp⟩
      change World.Sheds machine.world (answer { machine with agenda := rest } reply).world
      rw [world_answer]
      exact ⟨fun _ _ _ bound => bound, rfl⟩
  | finish label =>
      simp only [carryOut, record]
      split <;> exact ⟨.refl machine.world, [], rfl, by simp⟩
  | _ => exact sheds.elim

theorem Inside.sheds (inside : Inside rest machine later) (scriptless : machine.world.Scriptless)
    (shape : machine.agenda = front ++ rest) (sheds : ∀ task ∈ front, task.Sheds) :
    World.Sheds machine.world later.world := by
  have whole : World.Sheds machine.world later.world ∧
      ∃ waiting, later.agenda = waiting ++ rest ∧ ∀ task ∈ waiting, task.Sheds := by
    induction inside with
    | refl => exact ⟨.refl machine.world, front, shape, sheds⟩
    | @step before task ahead inside here induction =>
        obtain ⟨less, waiting, agenda, quiet⟩ := induction
        have same : waiting = task :: ahead :=
          List.append_cancel_right (agenda.symm.trans here)
        subst same
        obtain ⟨further, tasks, left, follows⟩ := sheds_step (scriptless.of_sheds less) here
          (quiet task List.mem_cons_self)
        refine ⟨less.trans further, tasks ++ ahead, ?_, fun next member => ?_⟩
        · rw [left, List.append_assoc]
        · rcases List.mem_append.1 member with new | old
          · exact follows next new
          · exact quiet next (List.mem_cons_of_mem task old)
  exact whole.1

end Shedding

end Machine

end ScriptSignal
