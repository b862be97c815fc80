import ScriptSignal.Proofs.Attained

/-!
# The custody of strong references

Between the steps of a client nothing is in hand. A strong reference that was acquired is then
stored with the client or in the table of a bridge that somebody holds, or it was given back
once and for all, to the engine or to nobody.
-/

namespace ScriptSignal

set_option autoImplicit false

namespace World

/-- The strong references that there are: those of the client, and those in the tables of the
bridges that somebody holds. -/
def strongReferences (world : World) : List Value :=
  world.clientReferences ++ world.bridges.toList.zipIdx.flatMap fun (bridge, index) =>
    if world.holdsBridge ⟨index⟩ then bridge.states.entries.flatMap SignalState.values else []

/-- Where a bridge that nobody holds has no states, all tables are counted. -/
theorem strong_references_eq {world : World}
    (cleared : ∀ id bridge, world.bridge? id = some bridge →
      world.holdsBridge id = true ∨ bridge.states.entries = []) :
    world.strongReferences = world.clientReferences ++ world.tableReferences := by
  have each : world.bridges.toList.zipIdx.flatMap (fun (bridge, index) =>
      if world.holdsBridge ⟨index⟩ then bridge.states.entries.flatMap SignalState.values
      else []) =
        world.bridges.toList.zipIdx.flatMap fun entry =>
          entry.1.states.entries.flatMap SignalState.values := by
    refine List.flatMap_congr fun entry member => ?_
    obtain ⟨bridge, index⟩ := entry
    have listed : world.bridge? ⟨index⟩ = some bridge := by
      have place := List.mem_zipIdx_iff_getElem?.1 member
      rw [Array.getElem?_toList] at place
      exact place
    rcases cleared ⟨index⟩ bridge listed with holds | empty
    · simp only [holds, if_true]
    · simp only [empty, List.flatMap_nil, ite_self]
  have whole : world.bridges.toList.zipIdx.flatMap (fun entry =>
      entry.1.states.entries.flatMap SignalState.values) = world.tableReferences := by
    unfold tableReferences
    rw [← List.zipIdx_map_fst 0 world.bridges.toList, List.flatMap_map, List.zipIdx_map_fst]
  unfold strongReferences
  rw [each, whole]

end World

/-- Moves give nothing back, and without an engine they acquire nothing. -/
theorem Move.reported {inscribes : Prop} {grasp after : Grasp}
    (move : Move inscribes grasp after) {event : Event}
    (custody : ¬event.Aside)
    (other : ∀ value, event = .acquired value → grasp.world.engine.running = false) :
    after.world.reported event = grasp.world.reported event := by
  cases move with
  | emit aside => exact World.reported_aside _ aside custody
  | acquire value running =>
      apply World.reported_other
      intro same
      rw [other value same.symm] at running
      cases running
  | _ => rfl

theorem Moves.reported {inscribes : Prop} {grasp after : Grasp}
    (moves : Moves inscribes grasp after) {event : Event}
    (custody : ¬event.Aside)
    (other : ∀ value, event = .acquired value → grasp.world.engine.running = false) :
    after.world.reported event = grasp.world.reported event := by
  induction moves with
  | refl => rfl
  | tail before move induction =>
      refine (move.reported custody fun value same => ?_).trans induction
      exact (Moves.running before).trans (other value same)

theorem World.reported_settle_bridge (world : World) (id : BridgeId) {event : Event}
    (custody : ¬event.Aside) : (world.settleBridge id).1.reported event = world.reported event := by
  unfold settleBridge
  split
  · rfl
  · dsimp only
    split
    · rfl
    · rename_i filled
      have aside : (Event.bridgeDropped
          ((world.bridge? id).elim [] fun bridge => bridge.states.entries).length).Aside := trivial
      exact reported_aside _ aside custody

namespace Machine

section Steps

variable {machine after : Machine} {rest : List Task} {task : Task}

theorem Turn.released (turn : Turn machine rest task after) {value : Value}
    (told : after.world.reported (.released value) ≠
      machine.world.reported (.released value)) : task = .drop ⟨value⟩ := by
  have custody : ¬(Event.released value).Aside := fun aside => aside
  have moved : ∀ {held held' : List Value} {left left' calls calls' : List BridgeId}
      {world : World}, Moves True ⟨machine.world, held, left, calls⟩ ⟨world, held', left', calls'⟩ →
      world.reported (.released value) = machine.world.reported (.released value) := by
    intro _ _ _ _ _ _ world moves
    exact moves.reported custody fun _ same => by cases same
  cases turn with
  | moved moves bare spares world agenda callers =>
      exact absurd (world ▸ moved (moves.moves [] [] [])) told
  | steps steps scripted world agenda callers => exact absurd (by rw [world]) told
  | enter world agenda callers => exact absurd (by rw [world]) told
  | leave moves agenda callers => exact absurd (moved (moves.moves [] [] [])) told
  | @release held _ world agenda callers =>
      exact absurd (world ▸ (World.only_objects_release _ held).reported _ custody) told
  | @drop held _ world agenda callers =>
      by_cases same : held.value = value
      · rw [← same]
      · apply absurd ?_ told
        rw [world]
        unfold World.dropReference
        split
        · exact World.reported_other _ (by simpa using same)
        · exact World.reported_other _ (by simp)
  | @reclaim id object _ found last world agenda callers =>
      have moves := (@World.moves_run_finalizer True machine.world [] trivial id).moves [] [] []
      exact absurd (world ▸ moved moves) told
  | @remove id _ world agenda callers =>
      exact absurd (world ▸ (World.only_objects_remove_object _ id).reported _ custody) told
  | @drain count _ world agenda callers =>
      exact absurd (world ▸ (World.only_objects_drain _ count).reported _ custody) told
  | collect world agenda callers => exact absurd (by rw [world]) told
  | @settle id _ world agenda callers =>
      exact absurd (world ▸ World.reported_settle_bridge _ id custody) told
  | @endCall id _ world agenda callers =>
      exact absurd (world ▸ World.reported_settle_bridge _ id custody) told
  | shutDown alone world agenda callers =>
      apply absurd ?_ told
      rw [world]
      rfl

theorem Kept.reported_stopped (kept : machine.Kept)
    (stopped : machine.world.engine.running = false) {event : Event} (custody : ¬event.Aside)
    (other : ∀ value, event ≠ .hostGone value) :
    machine.step.world.reported event = machine.world.reported event := by
  have outlasts := (kept.stopped stopped).2
  cases shape : machine.agenda with
  | nil => rw [step_of_nil shape]
  | cons task rest =>
      have first : task.Outlasts := outlasts task (by simp [shape])
      cases kept.turn shape with
      | moved moves free spares world agenda callers =>
          rw [world]
          exact (moves.moves [] [] []).reported custody fun _ _ => stopped
      | steps steps scripted world agenda callers => rw [world]
      | collect world agenda callers => rw [world]
      | @drop held _ world agenda callers =>
          have gone : machine.world.dropReference held =
              (machine.world.emit (.hostGone held.value), []) := by
            simp [World.dropReference, stopped]
          rw [world, gone]
          exact World.reported_other _ (other held.value).symm
      | @settle id _ world agenda callers =>
          rw [world]
          exact World.reported_settle_bridge _ id custody
      | shutDown alone world agenda callers =>
          rw [world]
          rfl
      | _ => exact first.elim

end Steps

/-- Every strong reference is given back once, or was held longer than the engine. -/
structure Custody (machine : Machine) : Prop where
  /-- Between the steps of a client nothing but what is stored is left. -/
  balanced : machine.agenda = [] → ∀ value,
    machine.world.reported (.acquired value) =
      machine.world.reported (.released value) + machine.world.reported (.hostGone value)
        + machine.world.strongReferences.count value
  /-- What is told to be given back is given back at once, and one reference of it. -/
  freed : ∀ value,
    machine.step.world.reported (.released value) ≠ machine.world.reported (.released value) →
      machine.step.world.reported (.released value) =
          machine.world.reported (.released value) + 1 ∧
        ∃ rest, machine.agenda = .drop ⟨value⟩ :: rest ∧
          machine.step.agenda = .release value :: rest ∧
          machine.step.step.world = (machine.step.world.release value).1 ∧
          machine.step.step.agenda = (machine.step.world.release value).2 ++ rest
  /-- Without an engine all that is told of strong references is that nobody takes them. -/
  gone : machine.world.engine.running = false →
    ∀ later, Relation.ReflTransGen Next machine later →
      later.world.engine = machine.world.engine ∧ (∀ value, .release value ∉ later.agenda) ∧
        ∀ event, ¬event.Aside → (∀ value, event ≠ .hostGone value) →
          later.world.reported event = machine.world.reported event

section Custody

variable {machine : Machine}

theorem Kept.freed (kept : machine.Kept) {value : Value}
    (told : machine.step.world.reported (.released value) ≠
      machine.world.reported (.released value)) :
    machine.step.world.reported (.released value) =
        machine.world.reported (.released value) + 1 ∧
      ∃ rest, machine.agenda = .drop ⟨value⟩ :: rest ∧
        machine.step.agenda = .release value :: rest ∧
        machine.step.step.world = (machine.step.world.release value).1 ∧
        machine.step.step.agenda = (machine.step.world.release value).2 ++ rest := by
  cases shape : machine.agenda with
  | nil =>
      rw [step_of_nil shape] at told
      exact absurd rfl told
  | cons task rest =>
      obtain rfl := (kept.turn shape).released told
      have world : machine.step.world = (machine.world.dropReference ⟨value⟩).1 := by
        rw [step_of_cons shape]
        rfl
      have agenda : machine.step.agenda = (machine.world.dropReference ⟨value⟩).2 ++ rest := by
        rw [step_of_cons shape]
        rfl
      cases running : machine.world.engine.running with
      | false =>
          have outlived : machine.world.dropReference ⟨value⟩ =
              (machine.world.emit (.hostGone value), []) := by
            simp [World.dropReference, running]
          apply absurd ?_ told
          rw [world, outlived]
          exact World.reported_other _ (by simp)
      | true =>
          have given : machine.world.dropReference ⟨value⟩ =
              (machine.world.emit (.released value), [.release value]) := by
            simp [World.dropReference, running]
          rw [given] at world agenda
          have waits : machine.step.agenda = .release value :: rest := agenda
          refine ⟨?_, rest, rfl, waits, ?_, ?_⟩
          · rw [world, World.reported_emit, if_pos rfl]
          · rw [step_of_cons waits]
            rfl
          · rw [step_of_cons waits]
            rfl

theorem Attained.gone (attained : machine.Attained)
    (stopped : machine.world.engine.running = false) {later : Machine}
    (nexts : Relation.ReflTransGen Next machine later) :
    later.Attained ∧ later.world.engine = machine.world.engine ∧
      ∀ event, ¬event.Aside → (∀ value, event ≠ .hostGone value) →
        later.world.reported event = machine.world.reported event := by
  induction nexts with
  | refl => exact ⟨attained, rfl, fun _ _ _ => rfl⟩
  | tail _ next induction =>
      obtain ⟨before, engine, told⟩ := induction
      cases next with
      | step =>
          have halted := (congrArg Engine.running engine).trans stopped
          refine ⟨before.step, (before.kept.engine_step halted).trans engine, ?_⟩
          intro event custody other
          exact (before.kept.reported_stopped halted custody other).trans (told event custody other)
      | submit step idle => exact ⟨before.submit idle step, engine, told⟩

/-- Whatever a client and scripts do, every strong reference is given back once. -/
theorem custody_of_attained (attained : machine.Attained) : machine.Custody := by
  have kept := attained.kept
  refine ⟨?_, fun value => kept.freed, ?_⟩
  · intro idle value
    have balanced := kept.grasp.balanced value
    have nothing : machine.grasp.held = [] ∧ machine.grasp.left = [] := by
      simp [grasp, idle]
    have cleared : ∀ id bridge, machine.world.bridge? id = some bridge →
        machine.world.holdsBridge id = true ∨ bridge.states.entries = [] := by
      intro id bridge found
      apply (kept.grasp.cleared id bridge found).imp_right
      intro waits
      rw [nothing.2] at waits
      exact waits.resolve_right List.not_mem_nil
    unfold Grasp.Balanced at balanced
    rw [nothing.1, List.count_nil] at balanced
    rw [World.strong_references_eq cleared, List.count_append]
    have same : machine.grasp.world = machine.world := rfl
    rw [same] at balanced
    omega
  · intro stopped later nexts
    obtain ⟨attains, engine, told⟩ := attained.gone stopped nexts
    refine ⟨engine, ?_, told⟩
    intro value member
    have halted := (congrArg Engine.running engine).trans stopped
    exact (attains.kept.stopped halted).2 _ member

/-- Of three strong references one is given back, one is dropped after the engine, and one is
still held. -/
def outlivedReference : Machine :=
  runAll 20 (start .immediate)
    [.act "create" (.object .create) (some "target"),
      .act "first" (.reference (.acquire "first" (.register "target"))) none,
      .act "second" (.reference (.acquire "second" (.register "target"))) none,
      .act "third" (.reference (.acquire "third" (.register "target"))) none,
      .act "drop" (.reference (.drop "first")) none,
      .act "end" .shutDown none,
      .act "outlive" (.reference (.drop "second")) none]

theorem attained_outlived_reference : outlivedReference.Attained :=
  (attained_start .immediate).run_all 20 (by decide)

theorem custody_of_outlived_reference :
    outlivedReference.world.reported (.acquired (.object ⟨0⟩)) = 3 ∧
      outlivedReference.world.reported (.released (.object ⟨0⟩)) = 1 ∧
      outlivedReference.world.reported (.hostGone (.object ⟨0⟩)) = 1 ∧
      outlivedReference.world.strongReferences = [.object ⟨0⟩] ∧ outlivedReference.Custody :=
  ⟨rfl, rfl, rfl, rfl, custody_of_attained attained_outlived_reference⟩

end Custody

end Machine

end ScriptSignal
