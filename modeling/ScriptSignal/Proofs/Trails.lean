import ScriptSignal.Proofs.Conservation
import ScriptSignal.Proofs.Pending

/-!
# What a run has passed

A trail lists the machines that a run has passed since the start. The reclaimer sets about the
end of an object when it finds it without references: it runs the finalizer of its class and
puts its removal on the agenda, after all that the finalizer is to do. Until then the object is
in the heap, its end is under way, and whatever runs can reach it.
-/

namespace ScriptSignal

set_option autoImplicit false

namespace World

section Counts

variable {world after : World} {id : ObjectId}

theorem references_of_engine (same : after.engine = world.engine) (id : ObjectId) :
    after.references id = world.references id := by
  unfold references
  rw [same]

theorem references_run_finalizer_any (id place : ObjectId) :
    (world.runFinalizer place).1.references id = world.references id := by
  unfold runFinalizer
  split
  · rfl
  · split
    · exact references_finalize_signal id _ _
    · rfl

theorem references_release (id place : ObjectId) :
    (world.release (.object place)).1.references id =
      if id = place then world.references place - 1 else world.references id := by
  by_cases held : 0 < world.references place
  · obtain ⟨object, count, found, counted⟩ := object_of_references held
    have before : world.references place - 1 = count := by
      rw [references_of_get place found, counted, Nat.add_sub_cancel]
    rw [before, ← references_recount found count id]
    rcases release_cases found counted with ⟨-, same⟩ | ⟨-, -, same⟩ | ⟨-, same⟩
    · rw [same]
    · rw [same]
      rfl
    · rw [same]
  · have none := Nat.eq_zero_of_not_pos held
    obtain ⟨event, same⟩ := release_of_unreferenced none
    rw [same]
    split
    · rename_i here
      rw [none, here]
      exact none
    · rfl

theorem backlog_release {place : ObjectId} (apart : id ≠ place)
    (waits : id ∈ (world.release (.object place)).1.engine.backlog.items) :
    id ∈ world.engine.backlog.items := by
  by_cases held : 0 < world.references place
  · obtain ⟨object, count, found, counted⟩ := object_of_references held
    rcases release_cases found counted with ⟨-, same⟩ | ⟨-, -, same⟩ | ⟨-, same⟩ <;>
      rw [same] at waits
    · exact waits
    · have later : id ∈ (world.engine.backlog.defer place).items := waits
      rw [Backlog.items_defer] at later
      simpa [apart] using later
    · exact waits
  · obtain ⟨event, same⟩ := release_of_unreferenced (Nat.eq_zero_of_not_pos held)
    rw [same] at waits
    exact waits

theorem references_of_spent (spent : world.Spent id) : world.references id = 0 := by
  obtain ⟨object, found, last⟩ := spent
  exact (references_of_get id found).trans last

end Counts

end World

theorem Move.references {inscribes : Prop} {grasp after : Grasp}
    (move : Move inscribes grasp after) (id : ObjectId) :
    grasp.world.references id ≤ after.world.references id := by
  cases move with
  | @put place object changed found counted =>
      change _ ≤ (grasp.world.putObject place changed).references id
      rw [World.references_put id found]
      split
      · rename_i same
        rw [same, World.references_of_get place found]
        exact counted
      · exact Nat.le_refl _
  | @allocate kind proto running =>
      change _ ≤ (grasp.world.allocate kind proto).references id
      rw [World.references_allocate]
      exact Nat.le_add_right _ _
  | _ => exact Nat.le_refl _

/-- What native code does before it leaves the rest takes references, and gives none back. -/
theorem Moves.references {inscribes : Prop} {grasp after : Grasp}
    (moves : Moves inscribes grasp after) (id : ObjectId) :
    grasp.world.references id ≤ after.world.references id := by
  induction moves with
  | refl => exact Nat.le_refl _
  | tail _ move induction => exact induction.trans (move.references id)

namespace Machine

section Turns

variable {machine after : Machine} {rest : List Task} {task : Task}

inductive Tallies (machine : Machine) (id : ObjectId) (task : Task) (after : Machine) : Prop
  | kept (counts : machine.world.references id ≤ after.world.references id)
      (backlog : id ∈ after.world.engine.backlog.items →
        id ∈ machine.world.engine.backlog.items)
  | returned (releases : task = .release (.object id))
      (counts : after.world.references id + 1 = machine.world.references id)
  | removed (removes : task = .remove id)
      (backlog : after.world.engine.backlog = machine.world.engine.backlog)

theorem tallies_of_engine {id : ObjectId} (same : after.world.engine = machine.world.engine) :
    Tallies machine id task after :=
  .kept (World.references_of_engine same id).ge fun member => same ▸ member

theorem tallies_of_release (id : ObjectId) (value : Value)
    (world : after.world = (machine.world.release value).1) :
    Tallies machine id (.release value) after := by
  cases value with
  | object place =>
      have counts := @World.references_release machine.world id place
      rw [← world] at counts
      by_cases here : id = place
      · subst here
        rw [if_pos rfl] at counts
        by_cases held : 0 < machine.world.references id
        · exact .returned rfl (by omega)
        · obtain ⟨event, same⟩ := World.release_of_unreferenced (Nat.eq_zero_of_not_pos held)
          exact tallies_of_engine (by rw [world, same]; rfl)
      · rw [if_neg here] at counts
        exact .kept counts.ge fun waits => World.backlog_release here (world ▸ waits)
  | _ => exact tallies_of_engine (by rw [world]; rfl)

/-- While the engine runs, references are given back one by one, and all else may only take
some. -/
theorem Turn.tallies (turn : Turn machine rest task after)
    (running : after.world.engine.running = true) (id : ObjectId) :
    Tallies machine id task after := by
  cases turn with
  | moved moves bare spares world agenda callers =>
      have kept := moves.moves [] [] []
      rw [← world] at kept
      exact .kept (kept.references id) fun member => kept.gentle.backlog ▸ member
  | leave moves agenda callers =>
      have kept := moves.moves [] [] []
      exact .kept (kept.references id) fun member => kept.gentle.backlog ▸ member
  | steps steps scripted world agenda callers => exact tallies_of_engine (by rw [world])
  | enter world agenda callers => exact tallies_of_engine (by rw [world])
  | collect world agenda callers => exact tallies_of_engine (by rw [world])
  | release world agenda callers => exact tallies_of_release id _ world
  | drop world agenda callers =>
      exact tallies_of_engine (by rw [world, World.engine_drop_reference])
  | @reclaim place object _ found last world agenda callers =>
      have kept := (@World.moves_run_finalizer True machine.world [] trivial place).moves [] [] []
      rw [← world] at kept
      exact .kept (kept.references id) fun member => kept.gentle.backlog ▸ member
  | @remove place _ world agenda callers =>
      rcases World.remove_object_cases machine.world place with
        ⟨-, same⟩ | ⟨object, -, same⟩ <;> rw [same] at world <;> dsimp only at world
      · exact tallies_of_engine (by rw [world])
      · by_cases here : id = place
        · exact .removed (here ▸ rfl) (by rw [world]; rfl)
        · refine .kept ?_ fun member => ?_
          · have counts := @World.references_without machine.world place id
            rw [if_neg here] at counts
            rw [world]
            exact counts.ge
          · rw [world] at member
            exact member
  | drain world agenda callers =>
      unfold World.drain at world
      split at world
      · rename_i first backlog taken
        refine .kept (by rw [world]; exact Nat.le_refl _) fun member => ?_
        rw [Backlog.items_eq_cons_of_next taken]
        rw [world] at member
        exact List.mem_cons_of_mem first member
      · apply tallies_of_engine
        rw [world]
        dsimp only
        split <;> rfl
  | settle world agenda callers =>
      exact tallies_of_engine (by rw [world, engine_settle_bridge])
  | endCall world agenda callers =>
      apply tallies_of_engine
      rw [world]
      exact (engine_settle_bridge _ _).trans rfl
  | shutDown alone world agenda callers =>
      rw [world] at running
      cases running

structure Listed (machine : Machine) (task : Task) (tasks : List Task) : Prop where
  removes : ∀ id, Task.remove id ∈ tasks → task = .reclaim id ∧ machine.world.Spent id
  reclaims : ∀ id, Task.reclaim id ∈ tasks →
    task = .release (.object id) ∧ 0 < machine.world.references id ∨
      id ∈ machine.world.engine.backlog.items

theorem Turn.listed (turn : Turn machine rest task after) :
    ∃ tasks, after.agenda = tasks ++ rest ∧ Listed machine task tasks := by
  cases turn.stirs with
  | placid agenda placid =>
      refine ⟨_, agenda, fun id member => ?_, fun id member => ?_⟩
      · exact absurd trivial (placid _ member).1
      · exact absurd trivial (placid _ member).1
  | @release value _ agenda =>
      refine ⟨_, agenda, fun id member => ?_, fun id member => ?_⟩
      · obtain ⟨place, -, -, other⟩ := World.task_of_release member
        cases other
      · obtain ⟨place, rfl, -, same⟩ := World.task_of_release member
        cases same
        refine .inl ⟨rfl, Nat.pos_of_ne_zero fun none => ?_⟩
        obtain ⟨event, same⟩ := World.release_of_unreferenced none
        rw [same] at member
        cases member
  | @reclaim place _ tasks spent agenda placid =>
      refine ⟨_, agenda.trans (List.append_cons _ _ _), fun id member => ?_, fun id member => ?_⟩
      · rcases List.mem_append.1 member with early | final
        · exact absurd trivial (placid _ early).1
        · cases List.mem_singleton.1 final
          exact ⟨rfl, spent⟩
      · rcases List.mem_append.1 member with early | final
        · exact absurd trivial (placid _ early).1
        · cases List.mem_singleton.1 final
  | @drain count _ agenda =>
      refine ⟨_, agenda, fun id member => ?_, fun id member => ?_⟩
      · rcases World.task_of_drain member with ⟨place, other⟩ | other <;> cases other
      · refine .inr ?_
        unfold World.drain at member
        split at member
        · rename_i first backlog taken
          rw [Backlog.items_eq_cons_of_next taken]
          simp only [List.mem_cons, Task.reclaim.injEq, reduceCtorEq, List.not_mem_nil,
            or_false] at member
          exact List.mem_cons.2 (.inl member)
        · cases member
  | @collect label keep _ agenda =>
      refine ⟨machine.world.collect.2 ++ [.finish label], ?_, fun id member => ?_,
        fun id member => ?_⟩
      · rw [agenda, List.append_assoc]
        rfl
      all_goals
        rcases List.mem_append.1 member with early | last
        · rcases World.task_of_collect early with other | other <;> cases other
        · cases List.mem_singleton.1 last

end Turns

/-- The machines that a run has passed since the start, the latest first. -/
inductive Trail : Machine → List Machine → Prop
  | start (setting : Setting) : Trail (start setting) []
  | step {machine : Machine} {past : List Machine} (trail : Trail machine past) :
      Trail machine.step (machine :: past)
  | submit {machine : Machine} {past : List Machine} (trail : Trail machine past)
      (idle : machine.agenda = []) (step : Step) : Trail (machine.submit step) (machine :: past)

/-- The reclaimer has found the object without references, and runs the finalizer of its class
if there is one. -/
def finalizes (id : ObjectId) (machine : Machine) : Bool :=
  match machine.agenda with
  | .reclaim other :: _ =>
      other = id ∧ (machine.world.engine.heap.get? id).any fun object => object.refCount = 0
  | _ => false

def returns (id : ObjectId) (machine : Machine) : Bool :=
  match machine.agenda with
  | .release (.object other) :: _ => other = id ∧ 0 < machine.world.references id
  | _ => false

def delivered (id : ObjectId) (past : List Machine) : Nat := past.countP (finalizes id)

def returned (id : ObjectId) (past : List Machine) : Nat := past.countP (returns id)

def taken (id : ObjectId) : List Machine → Nat
  | later :: earlier :: past =>
      (later.world.references id - earlier.world.references id) + taken id (earlier :: past)
  | _ => 0

section Trails

variable {machine : Machine} {past : List Machine} {id : ObjectId}

theorem finalizes_iff :
    machine.finalizes id = true ↔
      ∃ rest, machine.agenda = .reclaim id :: rest ∧ machine.world.Spent id := by
  unfold finalizes
  split
  · rename_i other rest shape
    rw [decide_eq_true_iff, Option.any_eq_true]
    constructor
    · rintro ⟨rfl, object, found, last⟩
      exact ⟨rest, shape, object, found, by simpa using last⟩
    · rintro ⟨later, same, object, found, last⟩
      cases shape.symm.trans same
      exact ⟨rfl, object, found, by simpa using last⟩
  · rename_i other
    refine iff_of_false Bool.false_ne_true ?_
    rintro ⟨rest, shape, -⟩
    exact other id rest shape

theorem returns_iff :
    machine.returns id = true ↔
      ∃ rest, machine.agenda = .release (.object id) :: rest ∧
        0 < machine.world.references id := by
  unfold returns
  split
  · rename_i other rest shape
    rw [decide_eq_true_iff]
    constructor
    · rintro ⟨rfl, held⟩
      exact ⟨rest, shape, held⟩
    · rintro ⟨later, same, held⟩
      cases shape.symm.trans same
      exact ⟨rfl, held⟩
  · rename_i other
    refine iff_of_false Bool.false_ne_true ?_
    rintro ⟨rest, shape, -⟩
    exact other id rest shape

theorem Trail.attained (trail : Trail machine past) : machine.Attained := by
  induction trail with
  | start setting => exact attained_start setting
  | step _ induction => exact induction.step
  | submit _ idle step induction => exact induction.submit idle step

/-- A run that was passed had a trail of its own, and went on from there. -/
theorem Trail.earlier {early late : List Machine} {passed : Machine} (trail : Trail machine past)
    (split : past = early ++ passed :: late) :
    Trail passed late ∧ Relation.ReflTransGen Next passed machine := by
  induction trail generalizing early with
  | start setting => exact absurd split (by simp)
  | @step before past trail induction =>
      cases early with
      | nil =>
          cases split
          exact ⟨trail, .single .step⟩
      | cons first early =>
          cases split
          obtain ⟨passing, nexts⟩ := induction rfl
          exact ⟨passing, nexts.tail .step⟩
  | @submit before past trail idle step induction =>
      cases early with
      | nil =>
          cases split
          exact ⟨trail, .single (.submit step idle)⟩
      | cons first early =>
          cases split
          obtain ⟨passing, nexts⟩ := induction rfl
          exact ⟨passing, nexts.tail (.submit step idle)⟩

def follow : Nat → Machine → List Machine → List Machine
  | 0, _, past => past
  | fuel + 1, machine, past =>
      if machine.agenda.isEmpty then past else follow fuel machine.step (machine :: past)

def followAll (fuel : Nat) : Machine → List Step → List Machine → List Machine
  | _, [], past => past
  | machine, step :: steps, past =>
      followAll fuel ((machine.submit step).run fuel) steps
        (follow fuel (machine.submit step) (machine :: past))

theorem Trail.run (trail : Trail machine past) (fuel : Nat) :
    Trail (machine.run fuel) (follow fuel machine past) := by
  induction fuel generalizing machine past with
  | zero => exact trail
  | succ fuel induction =>
      unfold Machine.run follow
      split
      · exact trail
      · exact induction trail.step

theorem Trail.run_all (fuel : Nat) {steps : List Step} (trail : Trail machine past)
    (idle : ∀ count < steps.length,
      (runAll fuel machine (steps.take count)).agenda.isEmpty = true) :
    Trail (runAll fuel machine steps) (followAll fuel machine steps past) := by
  induction steps generalizing machine past with
  | nil => exact trail
  | cons step steps induction =>
      have begins := List.isEmpty_iff.1 (idle 0 (Nat.succ_pos _))
      refine induction ((trail.submit begins step).run fuel) ?_
      intro count below
      exact idle (count + 1) (Nat.succ_lt_succ below)

structure TrailInBounds (machine : Machine) (past : List Machine) : Prop where
  trail : Trail machine past
  bounds : ∀ passed ∈ machine :: past, passed.world.InBounds

theorem Trail.in_bounds (trail : Trail machine past)
    (checked : ((machine :: past).all fun passed => passed.world.checkBounds) = true) :
    TrailInBounds machine past where
  trail := trail
  bounds := fun passed member => World.in_bounds_of_check (List.all_eq_true.1 checked passed member)

/-- What was in the heap is there still, or has left it, or the engine has come to its end. -/
theorem Attained.stays (attained : machine.Attained) {object : Object}
    (found : machine.world.engine.heap.get? id = some object) {later : Machine}
    (nexts : Relation.ReflTransGen Next machine later) :
    (∃ held, later.world.engine.heap.get? id = some held) ∨ later.world.Gone id ∨
      later.world.engine.running = false := by
  have onward : later.Attained ∧
      (id.index < later.world.size ∨ later.world.engine.running = false) := by
    induction nexts with
    | refl => exact ⟨attained, .inl (Heap.index_lt_of_get found)⟩
    | tail _ next induction =>
        obtain ⟨before, inside⟩ := induction
        cases next with
        | submit step idle => exact ⟨before.submit idle step, inside⟩
        | step =>
            refine ⟨before.step, ?_⟩
            cases running : (Machine.step _).world.engine.running with
            | false => exact .inr rfl
            | true =>
                left
                have was := inside.resolve_right fun stopped => by
                  rw [before.kept.engine_step stopped, stopped] at running
                  cases running
                rcases before.deed with gentle | ⟨task, rest, -, deed⟩
                · exact Nat.lt_of_lt_of_le was gentle.size
                · rcases deed.departs running with same | ⟨removed, object, -, -, size, -⟩
                  · exact Nat.lt_of_lt_of_le was same.size
                  · rw [size]
                    exact was
  rcases onward.2 with inside | stopped
  · cases reached : later.world.engine.heap.get? id with
    | some held => exact .inl ⟨held, rfl⟩
    | none => exact .inr (.inl ⟨inside, reached⟩)
  · exact .inr (.inr stopped)

/-- What was in the heap and is there later was there all the while. -/
theorem Attained.present (attained : machine.Attained) {before after : Object}
    (was : machine.world.engine.heap.get? id = some before) {later : Machine}
    (nexts : Relation.ReflTransGen Next machine later)
    (found : later.step.world.engine.heap.get? id = some after) :
    ∃ held, later.world.engine.heap.get? id = some held := by
  have attains := attained.nexts nexts
  rcases attained.stays was nexts with held | gone | stopped
  · exact held
  · rw [attains.never gone (.single .step)] at found
    cases found
  · rw [attains.kept.engine_step stopped, (attains.kept.stopped stopped).1] at found
    rw [show (Engine.stopped later.world.engine.mode).heap.get? id = none from
      Heap.get_eq_none_of_size_le (Nat.zero_le _)] at found
    cases found

/-- What is to be removed, the reclaimer has set about. -/
theorem Trail.begun (trail : Trail machine past) (listed : Task.remove id ∈ machine.agenda) :
    ∃ check ∈ past, check.finalizes id = true := by
  induction trail with
  | start setting => exact absurd listed List.not_mem_nil
  | @submit before past trail idle step induction =>
      simp [Machine.submit, idle] at listed
  | @step before past trail induction =>
      have onward : Task.remove id ∈ before.agenda →
          ∃ check ∈ before :: past, check.finalizes id = true := by
        intro waits
        obtain ⟨check, member, begins⟩ := induction waits
        exact ⟨check, List.mem_cons_of_mem before member, begins⟩
      cases shape : before.agenda with
      | nil =>
          rw [step_of_nil shape] at listed
          exact onward listed
      | cons task rest =>
          obtain ⟨tasks, agenda, lists⟩ := (trail.attained.kept.turn shape).listed
          rw [agenda] at listed
          rcases List.mem_append.1 listed with new | waits
          · obtain ⟨rfl, spent⟩ := lists.removes id new
            exact ⟨before, List.mem_cons_self, finalizes_iff.2 ⟨rest, shape, spent⟩⟩
          · exact onward (shape ▸ List.mem_cons_of_mem task waits)

end Trails

/-- The machines that were passed since the reclaimer set about the end of an object. Its
removal stands before the rest. -/
inductive Ending (id : ObjectId) (rest : List Task) (check : Machine) :
    Machine → List Machine → Prop
  | begins : Ending id rest check check.step []
  | step {machine : Machine} {during : List Machine} {task : Task} {front : List Task}
      (ending : Ending id rest check machine during)
      (shape : machine.agenda = task :: (front ++ .remove id :: rest)) :
      Ending id rest check machine.step (machine :: during)

section Endings

variable {id : ObjectId} {rest : List Task} {check machine : Machine} {past during : List Machine}

theorem Ending.nexts (ending : Ending id rest check machine during) :
    Relation.ReflTransGen Next check machine := by
  induction ending with
  | begins => exact .single .step
  | step _ _ induction => exact induction.tail .step

theorem Ending.attained (ending : Ending id rest check machine during)
    (attained : check.Attained) : machine.Attained :=
  attained.nexts ending.nexts

theorem Ending.listed (ending : Ending id rest check machine during) :
    ∀ passed ∈ during, Task.remove id ∈ passed.agenda := by
  induction ending with
  | begins => exact fun passed member => absurd member List.not_mem_nil
  | step ending shape induction =>
      intro passed member
      rcases List.mem_cons.1 member with rfl | later
      · simp [shape]
      · exact induction passed later

/-- The removal is on the agenda as long as the end is under way. -/
theorem Ending.agenda (ending : Ending id rest check machine during) (attained : check.Attained)
    (begins : check.agenda = .reclaim id :: rest) (spent : check.world.Spent id) :
    ∃ front, machine.agenda = front ++ .remove id :: rest := by
  induction ending with
  | begins =>
      obtain ⟨object, found, last⟩ := spent
      refine ⟨(check.world.runFinalizer id).2, ?_⟩
      rw [step_of_cons begins]
      simp [carryOut, act, World.reclaim, found, last]
  | @step before during task front ending shape induction =>
      obtain ⟨tasks, agenda⟩ := (ending.attained attained).agenda_step shape
      exact ⟨tasks ++ front, agenda.trans (List.append_assoc _ _ _).symm⟩

theorem gone_of_removed (shape : machine.agenda = .remove id :: rest) :
    machine.step.world.engine.heap.get? id = none := by
  have world : machine.step.world = (machine.world.removeObject id).1 := by
    rw [step_of_cons shape]
    rfl
  rw [world]
  rcases World.remove_object_cases machine.world id with ⟨none, same⟩ | ⟨object, -, same⟩
  · rw [same]
    exact none
  · rw [same]
    exact Heap.get_remove_same _ id

/-- The engine is not torn down while the end of an object is under way. -/
theorem Ending.running (ending : Ending id rest check machine during)
    (attained : check.Attained) (begins : check.agenda = .reclaim id :: rest)
    (spent : check.world.Spent id) : machine.world.engine.running = true := by
  cases running : machine.world.engine.running with
  | true => rfl
  | false =>
      obtain ⟨front, agenda⟩ := ending.agenda attained begins spent
      have outlasts := ((ending.attained attained).kept.stopped running).2 (.remove id)
        (by simp [agenda])
      exact outlasts.elim

/-- As long as the object is in the heap, the references that it has are those that were taken
since its end began and not given back. -/
theorem Ending.balance (ending : Ending id rest check machine during)
    (attained : check.Attained) (begins : check.agenda = .reclaim id :: rest)
    (spent : check.world.Spent id) {object : Object}
    (found : machine.world.engine.heap.get? id = some object) :
    machine.world.references id + returned id during = taken id (machine :: during) := by
  obtain ⟨was, reached, last⟩ := spent
  have spent : check.world.Spent id := ⟨was, reached, last⟩
  induction ending generalizing object with
  | begins =>
      have world : check.step.world = (check.world.runFinalizer id).1 := by
        rw [step_of_cons begins]
        simp [carryOut, act, World.reclaim, reached, last]
      rw [world, World.references_run_finalizer_any, World.references_of_spent spent]
      rfl
  | @step before during task front ending shape induction =>
      obtain ⟨held, here⟩ := attained.present reached ending.nexts found
      have account := induction here
      have running := (Ending.step ending shape).running attained begins spent
      have turn := (ending.attained attained).kept.turn shape
      have listed : taken id (before.step :: before :: during) =
          (before.step.world.references id - before.world.references id)
            + taken id (before :: during) := rfl
      rw [listed, ← account, returned, List.countP_cons, ← returned]
      by_cases gives : before.returns id = true
      · obtain ⟨later, top, counted⟩ := returns_iff.1 gives
        have world : before.step.world = (before.world.release (.object id)).1 := by
          rw [step_of_cons top]
          rfl
        have fewer := @World.references_release before.world id id
        rw [if_pos rfl, ← world] at fewer
        rw [if_pos gives]
        omega
      · rw [if_neg gives]
        cases turn.tallies running id with
        | kept counts backlog => omega
        | returned releases counts =>
            subst releases
            exact absurd (returns_iff.2 ⟨_, shape, by omega⟩) gives
        | removed removes backlog =>
            subst removes
            rw [gone_of_removed shape] at found
            cases found

/-- The reclaimer does not come back to an object that waits for it only once and that nobody
takes a reference to. -/
theorem Ending.quiet (ending : Ending id rest check machine during)
    (attained : check.Attained) (begins : check.agenda = .reclaim id :: rest)
    (spent : check.world.Spent id) (once : id ∉ check.world.engine.backlog.items)
    (untaken : ∀ passed ∈ during,
      passed.step.world.references id ≤ passed.world.references id) :
    ∃ front, machine.agenda = front ++ .remove id :: rest ∧ Task.reclaim id ∉ front ∧
      machine.world.references id = 0 ∧ id ∉ machine.world.engine.backlog.items := by
  induction ending with
  | begins =>
      have none := World.references_of_spent spent
      obtain ⟨object, found, last⟩ := spent
      have stepped : check.step.world = (check.world.runFinalizer id).1 ∧
          check.step.agenda = (check.world.runFinalizer id).2 ++ .remove id :: rest := by
        rw [step_of_cons begins]
        simp [carryOut, act, World.reclaim, found, last]
      have moves := (@World.moves_run_finalizer True check.world [] trivial id).moves [] [] []
      refine ⟨_, stepped.2, ?_, ?_, ?_⟩
      · intro member
        rcases World.task_of_finalizer member with
          ⟨held, other⟩ | ⟨body, receiver, arguments, other⟩
        all_goals cases other
      · rw [stepped.1, World.references_run_finalizer_any, none]
      · rw [stepped.1]
        exact fun member => once (moves.gentle.backlog ▸ member)
  | @step before during task front ending shape induction =>
      obtain ⟨before_front, agenda, absent, none, away⟩ := induction fun passed member =>
        untaken passed (List.mem_cons_of_mem before member)
      have alike : before_front ++ .remove id :: rest = (task :: front) ++ .remove id :: rest :=
        agenda.symm.trans shape
      have same : before_front = task :: front := List.append_cancel_right alike
      subst same
      have turn := (ending.attained attained).kept.turn shape
      have running := (Ending.step ending shape).running attained begins spent
      obtain ⟨tasks, stepped, lists⟩ := turn.listed
      have untouched := untaken before List.mem_cons_self
      refine ⟨tasks ++ front, stepped.trans (List.append_assoc _ _ _).symm, ?_, by omega, ?_⟩
      · intro member
        rcases List.mem_append.1 member with new | waits
        · rcases lists.reclaims id new with ⟨-, held⟩ | waiting
          · omega
          · exact away waiting
        · exact absent (List.mem_cons_of_mem task waits)
      · intro member
        cases turn.tallies running id with
        | kept counts backlog => exact away (backlog member)
        | returned releases counts => omega
        | removed removes backlog => exact away (backlog ▸ member)

end Endings

section Trails

variable {machine : Machine} {past : List Machine} {id : ObjectId}

/-- What was passed since the reclaimer ran the finalizer of an object last. -/
def since (id : ObjectId) (past : List Machine) : List Machine :=
  past.takeWhile fun machine => !machine.finalizes id

/-- An object that the reclaimer has set about and that is in the heap comes to its end. -/
theorem Trail.ending (trail : Trail machine past)
    (begun : ∃ check ∈ past, check.finalizes id = true) {object : Object}
    (found : machine.world.engine.heap.get? id = some object) :
    ∃ check earlier rest, past = since id past ++ check :: earlier ∧
      check.agenda = .reclaim id :: rest ∧ check.world.Spent id ∧
      Ending id rest check machine (since id past) := by
  induction trail generalizing object with
  | start setting =>
      obtain ⟨check, member, -⟩ := begun
      cases member
  | @submit before past trail idle step induction =>
      have apart : before.finalizes id = false := by
        unfold finalizes
        rw [idle]
      have earlier : ∃ check ∈ past, check.finalizes id = true := by
        obtain ⟨check, member, begins⟩ := begun
        rcases List.mem_cons.1 member with rfl | later
        · rw [apart] at begins
          cases begins
        · exact ⟨check, later, begins⟩
      obtain ⟨check, late, rest, split, begins, spent, ending⟩ := induction earlier found
      have passing := (trail.earlier split).1.attained
      obtain ⟨front, agenda⟩ := ending.agenda passing begins spent
      rw [idle] at agenda
      exact absurd agenda (by simp)
  | @step before past trail induction =>
      cases finds : before.finalizes id with
      | true =>
          obtain ⟨rest, shape, spent⟩ := finalizes_iff.1 finds
          have none : since id (before :: past) = [] := by
            simp [since, finds]
          rw [none]
          exact ⟨before, past, rest, rfl, shape, spent, .begins⟩
      | false =>
          have more : since id (before :: past) = before :: since id past := by
            simp [since, finds]
          rw [more]
          have earlier : ∃ check ∈ past, check.finalizes id = true := by
            obtain ⟨check, member, begins⟩ := begun
            rcases List.mem_cons.1 member with rfl | later
            · rw [finds] at begins
              cases begins
            · exact ⟨check, later, begins⟩
          obtain ⟨check, member, begins⟩ := earlier
          obtain ⟨early, late, split⟩ := List.append_of_mem member
          obtain ⟨passing, nexts⟩ := trail.earlier split
          obtain ⟨rest, shape, object, was, last⟩ := finalizes_iff.1 begins
          obtain ⟨held, here⟩ := passing.attained.present was nexts found
          obtain ⟨check, late, rest, split, begins, spent, ending⟩ :=
            induction ⟨check, member, begins⟩ here
          have passing := (trail.earlier split).1.attained
          obtain ⟨front, agenda⟩ := ending.agenda passing begins spent
          refine ⟨check, late, rest, by rw [List.cons_append, ← split], begins, spent, ?_⟩
          cases front with
          | nil =>
              rw [gone_of_removed agenda] at found
              cases found
          | cons task front => exact ending.step agenda

end Trails

end Machine

end ScriptSignal
