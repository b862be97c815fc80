import ScriptSignal.Proofs.Commands

/-!
# Steps taken apart

Whatever a step does to a world, as long as the engine runs, it does by small changes, by writing
slots and tables of states, and by removing objects. What none of these takes away therefore stays
in every machine that comes about.
-/

namespace ScriptSignal

set_option autoImplicit false

namespace World

inductive Alters (before : World) : World → Prop
  | change {after : World} (change : Change before after) : Alters before after
  | slot (value : Value) (classId : ClassId) (key : Option Key) :
      Alters before (before.setSlot value classId key)
  | states (id : BridgeId) (change : Slab SignalState → Slab SignalState) :
      Alters before (before.modifyStates id change)
  | remove (id : ObjectId) : Alters before (before.removeObject id).1

abbrev Alterations : World → World → Prop := Relation.ReflTransGen Alters

section Alterations

variable {before world after : World}

theorem Changes.alterations (changes : Changes before after) : Alterations before after :=
  Relation.ReflTransGen.mono (fun _ _ => Alters.change) _ _ changes

theorem Alterations.emit (alterations : Alterations before world) (event : Event) :
    Alterations before (world.emit event) :=
  alterations.tail (.change (.emit world event))

theorem Alterations.states (alterations : Alterations before world) (id : BridgeId)
    (change : Slab SignalState → Slab SignalState) :
    Alterations before (world.modifyStates id change) :=
  alterations.tail (.states id change)

theorem Alterations.bind_handle (alterations : Alterations before world) (id : BridgeId)
    (handle : Value) (key : Option Key) : Alterations before (world.bindHandle id handle key) := by
  rcases bind_handle_cases world id handle key with same | ⟨bridge, -, same⟩
  · rwa [same]
  · rw [same]
    exact alterations.tail (.slot handle bridge.classId key)

theorem Alterations.finalize_signal (alterations : Alterations before world) (id : BridgeId)
    (handle : Value) : Alterations before (world.finalizeSignal id handle).1 := by
  have unbound := alterations.bind_handle id handle none
  rcases finalize_signal_cases world id handle with
    ⟨same, -⟩ | ⟨key, state, -, -, same⟩ | ⟨key, -, -, same⟩
  · rw [same]
    exact alterations.emit _
  · rw [same]
    exact (unbound.states id _).emit _
  · rw [same]
    exact unbound.emit _

theorem Alterations.settle_bridge (alterations : Alterations before world) (id : BridgeId) :
    Alterations before (world.settleBridge id).1 := by
  unfold settleBridge
  split
  · exact alterations
  · dsimp only
    split
    · exact alterations.states id _
    · exact (alterations.states id _).emit _

theorem alterations_run_finalizer (world : World) (id : ObjectId) :
    Alterations world (world.runFinalizer id).1 := by
  unfold runFinalizer
  split
  · exact .refl
  · split
    · exact Alterations.finalize_signal .refl _ _
    · exact .refl

theorem alterations_bind_signal (world : World) (id : BridgeId) (route : Route) (handle : Value)
    (link : Option StrongRef) : Alterations world (world.bindSignal id route handle link).1 := by
  unfold bindSignal
  split
  · exact ((Alterations.states .refl id _).bind_handle id handle _).emit _
  · exact .refl

theorem Effect.alterations (effect : Effect before after)
    (running : after.engine.running = true) : Alterations before after := by
  cases effect with
  | changes changes => exact changes.alterations
  | write new first found last => exact (first.alterations.states _ _).trans last.alterations
  | finalize first id handle => exact first.alterations.finalize_signal id handle
  | settle first id => exact first.alterations.settle_bridge id
  | stop stopped =>
      rw [stopped] at running
      cases running

end Alterations

end World

namespace Machine

section Alterations

variable {machine : Machine}

theorem Stepped.alterations {rest : List Task} {task : Task} {after : Machine}
    (stepped : Stepped machine rest task after) (running : after.world.engine.running = true) :
    machine.world.Alterations after.world := by
  cases stepped with
  | lawful lawful world agenda =>
      rw [world] at running ⊢
      exact lawful.effect.alterations running
  | reclaim found dead world agenda =>
      rw [world]
      exact World.alterations_run_finalizer _ _
  | remove world agenda =>
      rw [world]
      exact .single (.remove _)
  | bind world agenda =>
      rw [world]
      exact World.alterations_bind_signal _ _ _ _ _
  | slot world agenda =>
      rw [world]
      exact .single (.slot _ _ _)

/-- As long as the engine runs, every step is made of these pieces. -/
theorem Informed.alterations (informed : machine.Informed)
    (running : machine.step.world.engine.running = true) :
    machine.world.Alterations machine.step.world := by
  have grounded := informed.grounded (informed.attained.running_of_step running)
  cases shape : machine.agenda with
  | nil =>
      rw [step_of_nil shape]
  | cons task rest => exact (grounded.stepped shape).alterations running

end Alterations

end Machine

end ScriptSignal
