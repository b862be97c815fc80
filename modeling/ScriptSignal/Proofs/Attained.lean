import ScriptSignal.Proofs.Bounds
import ScriptSignal.Proofs.Turns

/-!
# Machines that are attained

A machine is attained when clients and scripts have done anything whatever since the start. What
a turn leaves takes the place of the first task and fits before the rest, so every machine that
is attained keeps to what turns rely on, and a torn-down engine stays as it is.
-/

namespace ScriptSignal

set_option autoImplicit false

section Waiting

variable {world later : World} {tasks rest : List Task} {task : Task}

theorem level_append (none : ∀ next ∈ tasks, next.leaves = false) (more : List Task) :
    level (tasks ++ more) = tasks ++ level more := by
  unfold level
  apply List.takeWhile_append_of_pos
  intro next member
  rw [none next member]
  rfl

theorem level_eq_self (none : ∀ next ∈ tasks, next.leaves = false) : level tasks = tasks := by
  have whole := level_append none []
  rw [List.append_nil] at whole
  exact whole.trans (List.append_nil tasks)

theorem layered_cons_iff : Layered (task :: rest) ↔
    (task.Steps → ∀ next ∈ level rest, next.Scripted) ∧ Layered rest := by
  constructor
  · intro layered
    refine ⟨layered [] task rest rfl, ?_⟩
    intro early step late shape
    exact layered (task :: early) step late (congrArg (task :: ·) shape)
  · rintro ⟨first, others⟩ early step late shape
    cases early with
    | nil =>
        cases shape
        exact first
    | cons head early =>
        cases shape
        exact others early step late rfl

theorem Layered.append (layered : Layered rest) (still : ∀ next ∈ tasks, ¬next.Steps) :
    Layered (tasks ++ rest) := by
  induction tasks with
  | nil => exact layered
  | cons first tasks induction =>
      refine layered_cons_iff.2 ⟨fun steps => absurd steps (still first List.mem_cons_self), ?_⟩
      exact induction fun next member => still next (List.mem_cons_of_mem first member)

theorem leaves_of_scripted (scripted : task.Scripted) : task.leaves = false := by
  cases task <;> first | rfl | exact scripted.elim

/-- Steps and what they leave to a script may come before more of that kind. -/
theorem Layered.script (layered : Layered rest) (scripted : ∀ next ∈ tasks, next.Scripted)
    (onward : ∀ next ∈ level rest, next.Scripted) : Layered (tasks ++ rest) := by
  induction tasks with
  | nil => exact layered
  | cons first tasks induction =>
      have others : ∀ next ∈ tasks, next.Scripted := fun next member =>
        scripted next (List.mem_cons_of_mem first member)
      rw [List.cons_append, layered_cons_iff]
      refine ⟨fun _ => ?_, induction others⟩
      rw [level_append fun next member => leaves_of_scripted (others next member)]
      intro next member
      exact (List.mem_append.1 member).elim (others next) (onward next)

theorem Guarded.tail (guarded : Guarded world [] (task :: rest)) : Guarded world [] rest := by
  intro early id route handle link late shape
  exact guarded (task :: early) id route handle link late (congrArg (task :: ·) shape)

theorem Guarded.transfer (guarded : Guarded world [] tasks)
    (installed : ∀ id, world.Installed id → later.Installed id) : Guarded later [] tasks := by
  intro early id route handle link late shape
  exact (guarded early id route handle link late shape).imp_left (installed id)

theorem Guarded.join (guarded : Guarded world [] tasks) (onward : Guarded world [] rest) :
    Guarded world [] (tasks ++ rest) := by
  refine Guarded.append ?_ onward
  intro early id route handle link late shape
  apply (guarded early id route handle link late shape).imp_right
  rw [List.append_nil, List.append_nil]
  exact List.mem_append_left _

end Waiting

namespace Machine

section Leftovers

variable {machine after : Machine} {rest tasks : List Task} {task : Task}

structure Leftover (machine : Machine) (task : Task) (tasks : List Task) (after : Machine) :
    Prop where
  guarded : Guarded after.world [] tasks
  told : ∀ event, Task.report event ∈ tasks → event.Aside
  layered : (∀ next ∈ tasks, ¬next.Steps) ∨
    task.Steps ∧ (∀ next ∈ tasks, next.Scripted) ∨
    ∃ (steps : List Step) (body : Body) (purpose : Purpose),
      tasks = steps.map Task.perform ++ [.leave body purpose]
  depth : tasks.countP Task.leaves + machine.callers.length =
    [task].countP Task.leaves + after.callers.length

theorem leaves_of_inert (inert : task.Inert) : task.leaves = false := by
  cases task <;> first | rfl | exact inert.elim

theorem leaves_of_tame (tame : task.Tame) : task.leaves = false := by
  cases task <;> first | rfl | exact tame.elim

theorem still_of_inert (inert : task.Inert) : ¬task.Steps := by
  cases task <;> first | exact inert.elim | exact fun steps => steps.elim

theorem still_of_tame (tame : task.Tame) : ¬task.Steps := by
  cases task <;> first | exact tame.elim | exact fun steps => steps.elim

theorem count_leaves (none : ∀ next ∈ tasks, next.leaves = false) :
    tasks.countP Task.leaves = 0 := by
  rw [List.countP_eq_zero]
  intro next member
  simp [none next member]

theorem leftover_of_inert (inert : ∀ next ∈ tasks, next.Inert) (body : task.leaves = false)
    (callers : after.callers = machine.callers) : Leftover machine task tasks after := by
  refine ⟨guarded_of_no_binds ?_, fun event => inert (.report event), .inl ?_, ?_⟩
  · intro next member binds
    have here := inert next member
    cases next <;> first | exact binds.elim | exact here.elim
  · exact fun next member => still_of_inert (inert next member)
  · rw [count_leaves fun next member => leaves_of_inert (inert next member), callers]
    simp [body]

theorem inert_of_drops (drops : ∀ next ∈ tasks, ∃ held, next = Task.drop held) :
    ∀ next ∈ tasks, next.Inert := by
  intro next member
  obtain ⟨held, rfl⟩ := drops next member
  trivial

theorem inert_of_finalizer {world : World} (id : ObjectId) :
    ∀ next ∈ (world.runFinalizer id).2, next.Inert := by
  intro next member
  rcases World.task_of_finalizer member with ⟨held, rfl⟩ | ⟨body, receiver, arguments, rfl⟩ <;>
    trivial

theorem inert_of_collect (world : World) (label : String) :
    ∀ next ∈ world.collect.2 ++ [.finish label], next.Inert := by
  intro next member
  rcases List.mem_append.1 member with early | last
  · rcases World.task_of_collect early with rfl | rfl <;> trivial
  · cases List.mem_singleton.1 last
    trivial

theorem inert_of_shut_down (world : World) (label : String) :
    ∀ next ∈ (List.range world.bridges.size).map (fun index => Task.settle ⟨index⟩) ++
      [.answer .nothing, .finish label], next.Inert := by
  intro next member
  rcases List.mem_append.1 member with settle | final
  · obtain ⟨index, -, rfl⟩ := List.mem_map.1 settle
    trivial
  · simp only [List.mem_cons, List.not_mem_nil, or_false] at final
    rcases final with rfl | rfl <;> trivial

theorem leftover_of_enter {body : Body} {receiver : Value} {arguments : List Value}
    {purpose : Purpose} (callers : after.callers = machine.frame :: machine.callers) :
    Leftover machine (.enter body receiver arguments purpose)
      (body.steps.map Task.perform ++ [.leave body purpose]) after := by
  refine ⟨guarded_of_no_binds ?_, by simp, .inr (.inr ⟨_, _, _, rfl⟩), ?_⟩
  · intro next member binds
    rcases List.mem_append.1 member with step | last
    · obtain ⟨step, -, rfl⟩ := List.mem_map.1 step
      exact binds.elim
    · cases List.mem_singleton.1 last
      exact binds.elim
  · have none : (body.steps.map Task.perform).countP Task.leaves = 0 := by
      simp [Task.leaves]
    rw [List.countP_append, none, callers, List.length_cons]
    simp [Task.leaves]
    omega

theorem Kept.leftover (kept : machine.Kept) (shape : machine.agenda = task :: rest)
    (turn : Turn machine rest task after) :
    ∃ tasks, after.agenda = tasks ++ rest ∧ Leftover machine task tasks after := by
  cases turn with
  | @moved task after outcome moves bare spares world agenda callers =>
      refine ⟨outcome.2, agenda, world ▸ moves.guarded, fun event => moves.tame (.report event),
        .inl fun next member => still_of_tame (moves.tame next member), ?_⟩
      rw [count_leaves fun next member => leaves_of_tame (moves.tame next member), callers]
      simp [bare.2.2]
  | @steps task after tasks steps scripted world agenda callers =>
      refine ⟨tasks, agenda, guarded_of_no_binds ?_, ?_, .inr (.inl ⟨steps, scripted⟩), ?_⟩
      · intro next member binds
        have here := scripted next member
        cases next <;> first | exact binds.elim | exact here.elim
      · intro event member
        exact (scripted _ member).elim
      · have body : task.leaves = false := by
          cases task <;> first | rfl | exact steps.elim
        rw [count_leaves fun next member => leaves_of_scripted (scripted next member), callers]
        simp [body]
  | @enter body receiver arguments purpose after world agenda callers =>
      refine ⟨_, ?_, leftover_of_enter callers⟩
      rw [agenda, List.append_assoc]
      rfl
  | @leave body purpose after moves agenda callers =>
      refine ⟨[], agenda, guarded_of_no_binds (by simp), by simp, .inl (by simp), ?_⟩
      have depth := kept.depth
      rw [shape, List.countP_cons_of_pos rfl] at depth
      rw [callers, List.length_tail]
      simp [Task.leaves]
      omega
  | @release value after world agenda callers =>
      refine ⟨_, agenda, leftover_of_inert ?_ rfl callers⟩
      intro next member
      obtain ⟨id, -, -, rfl⟩ := World.task_of_release member
      trivial
  | @drop held after world agenda callers =>
      refine ⟨_, agenda, leftover_of_inert ?_ rfl callers⟩
      intro next member
      cases World.task_of_drop_reference member
      trivial
  | @reclaim id object after found last world agenda callers =>
      refine ⟨(machine.world.runFinalizer id).2 ++ [.remove id], ?_,
        leftover_of_inert ?_ rfl callers⟩
      · rw [agenda, List.append_assoc]
        rfl
      · intro next member
        rcases List.mem_append.1 member with early | final
        · exact inert_of_finalizer id next early
        · cases List.mem_singleton.1 final
          trivial
  | @remove id after world agenda callers =>
      refine ⟨_, agenda, leftover_of_inert ?_ rfl callers⟩
      intro next member
      obtain ⟨value, rfl⟩ := releases_of_remove_object machine.world id next member
      trivial
  | @drain count after world agenda callers =>
      refine ⟨_, agenda, leftover_of_inert ?_ rfl callers⟩
      intro next member
      rcases World.task_of_drain member with ⟨id, rfl⟩ | rfl <;> trivial
  | @collect label keep after world agenda callers =>
      refine ⟨_, ?_, leftover_of_inert (inert_of_collect machine.world label) rfl callers⟩
      rw [agenda, List.append_assoc]
      rfl
  | @settle id after world agenda callers =>
      exact ⟨_, agenda,
        leftover_of_inert (inert_of_drops (World.drops_of_settle_bridge _ id)) rfl callers⟩
  | @endCall id after world agenda callers =>
      exact ⟨_, agenda,
        leftover_of_inert (inert_of_drops (World.drops_of_settle_bridge _ id)) rfl callers⟩
  | @shutDown label keep after alone world agenda callers =>
      refine ⟨_, ?_, leftover_of_inert (inert_of_shut_down machine.world label) rfl callers⟩
      rw [agenda, List.append_assoc]
      rfl

/-- What classes hold, they hold for ever. -/
theorem Turn.installed (turn : Turn machine rest task after) {id : BridgeId}
    (installed : machine.world.Installed id) : after.world.Installed id := by
  have persisting : ∀ {world : World}, machine.world.Persists world → world.Installed id := by
    intro world persists
    obtain ⟨bridge, found, held⟩ := installed
    obtain ⟨later, reached, -, -, same, -⟩ := persists.bridges id bridge found
    exact ⟨later, reached, same.trans held⟩
  have objects : ∀ {world : World}, machine.world.OnlyObjects world → world.Installed id := by
    intro world only
    obtain ⟨bridge, found, held⟩ := installed
    have reads : world.bridge? id = machine.world.bridge? id := by
      simp only [World.bridge?, only.bridges]
    exact ⟨bridge, reads.trans found, held⟩
  cases turn with
  | moved moves bare spares world agenda callers =>
      rw [world]
      exact Moves.installed (moves.moves [] [] []) installed
  | leave moves agenda callers => exact Moves.installed (moves.moves [] [] []) installed
  | steps steps scripted world agenda callers => exact world ▸ installed
  | enter world agenda callers => exact world ▸ installed
  | collect world agenda callers => exact world ▸ installed
  | shutDown alone world agenda callers =>
      rw [world]
      exact installed
  | release world agenda callers =>
      rw [world]
      exact objects (World.only_objects_release _ _)
  | @drop held after world agenda callers =>
      rw [world]
      unfold World.dropReference
      split <;> exact installed
  | @reclaim id object after found last world agenda callers =>
      rw [world]
      exact Moves.installed
        ((@World.moves_run_finalizer True machine.world [] trivial id).moves [] [] [])
        installed
  | remove world agenda callers =>
      rw [world]
      exact objects (World.only_objects_remove_object _ _)
  | drain world agenda callers =>
      rw [world]
      exact objects (World.only_objects_drain _ _)
  | settle world agenda callers =>
      rw [world]
      exact persisting (World.persists_settle_bridge _ _)
  | @endCall ending after world agenda callers =>
      have ended : machine.world.Persists (machine.world.modifyBridge ending fun bridge =>
          { bridge with active := bridge.active - 1 }) :=
        World.persists_modify _ _ fun _ _ => ⟨rfl, rfl, rfl, Nat.le_refl _⟩
      rw [world]
      exact persisting (ended.trans (World.persists_settle_bridge _ ending))

theorem outlasts_done (world : World) (reply : Reply) :
    ∀ next ∈ (world.done reply).2, next.Outlasts := by
  intro next member
  cases List.mem_singleton.1 member
  trivial

theorem outlasts_drops (references : List StrongRef) :
    ∀ next ∈ references.map Task.drop, next.Outlasts := by
  intro next member
  obtain ⟨held, -, rfl⟩ := List.mem_map.1 member
  trivial

theorem outlasts_undertake {world : World} (stopped : world.engine.running = false)
    {read : Operand → Value} {command : Command} {errand : Errand}
    (account : world.Account read command errand) (free : command.needsEngine = false) :
    ∀ next ∈ (world.undertake errand).2, next.Outlasts := by
  have answered : ∀ {later : World} {tasks : List Task} (reply : Reply),
      (∀ next ∈ tasks, next.Outlasts) → ∀ next ∈ (later.after tasks reply).2, next.Outlasts := by
    intro later tasks reply outlast next member
    rcases List.mem_append.1 member with early | last
    · exact outlast next early
    · cases List.mem_singleton.1 last
      trivial
  cases account with
  | answer | forget => exact outlasts_done _ _
  | dropBridge name =>
      simp only [World.undertake, World.dropBridge]
      split
      · exact outlasts_done _ _
      · refine answered _ fun next member => ?_
        cases List.mem_singleton.1 member
        trivial
  | dropReference name =>
      simp only [World.undertake, World.dropNamedReference]
      split
      · exact outlasts_done _ _
      · rename_i held found
        exact answered _ (outlasts_drops [held])
  | createState name link =>
      simp only [World.undertake, World.createState, World.drops_eq_map]
      exact answered _ (outlasts_drops _)
  | clearState name keep =>
      simp only [World.undertake, World.clearState]
      split
      · exact outlasts_done _ _
      · split
        · exact outlasts_done _ _
        · rename_i callback connected
          split
          · exact answered _ (outlasts_drops _)
          · exact answered _ (outlasts_drops [callback])
  | dropState name =>
      simp only [World.undertake, World.dropState]
      split
      · exact outlasts_done _ _
      · exact answered _ (outlasts_drops _)
  | shutDown =>
      simp only [World.undertake, World.shutDown, stopped, Bool.false_eq_true, if_false]
      exact outlasts_done _ _
  | _ => cases free

/-- Without an engine there is nothing to do but what may outlast it. -/
theorem outlasts_perform {world : World} (stopped : world.engine.running = false)
    (read : Operand → Value) (command : Command) :
    ∀ next ∈ (world.perform read command).2, next.Outlasts := by
  unfold World.perform
  split
  · exact outlasts_done _ _
  · rename_i offered
    have free : command.needsEngine = false := by simpa [stopped] using offered
    rw [← World.undertake_errand]
    exact outlasts_undertake stopped (world.account read command) free

theorem engine_settle_bridge (world : World) (id : BridgeId) :
    (world.settleBridge id).1.engine = world.engine := by
  unfold World.settleBridge
  split
  · rfl
  · dsimp only
    split <;> rfl

theorem outlasts_begin (stopped : machine.world.engine.running = false) (step : Step) :
    ∃ tasks, ({ machine with agenda := rest }.perform step).agenda = tasks ++ rest ∧
      ∀ next ∈ tasks, next.Outlasts := by
  have finished : ∀ {tasks : List Task} (label : String), (∀ next ∈ tasks, next.Outlasts) →
      ({ machine with agenda := rest }.perform step).agenda = tasks ++ .finish label :: rest →
      ∃ tasks, ({ machine with agenda := rest }.perform step).agenda = tasks ++ rest ∧
        ∀ next ∈ tasks, next.Outlasts := by
    intro tasks label early agenda
    refine ⟨tasks ++ [.finish label], agenda.trans (List.append_cons _ _ _), ?_⟩
    intro next member
    rcases List.mem_append.1 member with near | last
    · exact early next near
    · cases List.mem_singleton.1 last
      trivial
  cases step with
  | act label command keep =>
      by_cases allowed : machine.isAllowed command = true
      · obtain ⟨-, agenda⟩ := @perform_act machine rest label command keep allowed
        exact finished label (outlasts_perform stopped _ command) agenda
      · have forbidden : machine.isAllowed command = false := by simpa using allowed
        obtain ⟨-, agenda⟩ := @perform_act_forbidden machine rest label command keep forbidden
        refine @finished [.answer (.refused .badStep)] label ?_ agenda
        intro next member
        cases List.mem_singleton.1 member
        trivial
  | define label classId name constructor methods finalizer =>
      have refused : machine.world.defineScripted classId name constructor methods finalizer =
          machine.world.done (.refused .noEngine) := by
        simp [World.defineScripted, stopped]
      refine @finished [.answer (.refused .noEngine)] label ?_ ?_
      · intro next member
        cases List.mem_singleton.1 member
        trivial
      · change (machine.world.defineScripted classId name constructor methods finalizer).2 ++ _ = _
        rw [refused]
        rfl
  | iterate label times steps =>
      refine @finished [.iterate times steps, .answer .nothing] label ?_ rfl
      intro next member
      simp only [List.mem_cons, List.not_mem_nil, or_false] at member
      rcases member with rfl | rfl <;> trivial
  | unknown label =>
      refine @finished [.answer (.refused .badStep)] label ?_ rfl
      intro next member
      cases List.mem_singleton.1 member
      trivial

theorem Kept.outlasts_step (kept : machine.Kept)
    (stopped : machine.world.engine.running = false) :
    ∀ next ∈ machine.step.agenda, next.Outlasts := by
  have outlasts := (kept.stopped stopped).2
  cases shape : machine.agenda with
  | nil =>
      rw [step_of_nil shape]
      exact outlasts
  | cons task rest =>
      rw [shape] at outlasts
      have first := outlasts task List.mem_cons_self
      have others : ∀ next ∈ rest, next.Outlasts := fun next member =>
        outlasts next (List.mem_cons_of_mem task member)
      have onward : ∀ {after : Machine} {tasks : List Task}, (∀ next ∈ tasks, next.Outlasts) →
          after.agenda = tasks ++ rest → ∀ next ∈ after.agenda, next.Outlasts := by
        intro after tasks early agenda next member
        rw [agenda] at member
        exact (List.mem_append.1 member).elim (early next) (others next)
      rw [step_of_cons shape]
      cases task with
      | drop held =>
          have same : machine.world.dropReference held =
              (machine.world.emit (.hostGone held.value), []) := by
            simp [World.dropReference, stopped]
          refine @onward _ [] (by simp) ?_
          change (machine.world.dropReference held).2 ++ rest = _
          rw [same]
      | settle id =>
          refine onward ?_ (rfl : _ = (machine.world.settleBridge id).2 ++ rest)
          intro next member
          obtain ⟨held, rfl⟩ := World.drops_of_settle_bridge machine.world id next member
          trivial
      | answer reply =>
          obtain ⟨agenda, -, -⟩ := parts_answer { machine with agenda := rest } reply
          exact @onward _ [] (by simp) agenda
      | finish label =>
          refine @onward _ [] (by simp) ?_
          simp only [carryOut, record]
          split <;> rfl
      | iterate times steps =>
          cases times with
          | zero => exact @onward _ [] (by simp) rfl
          | succ times =>
              refine onward ?_
                (rfl : _ = (steps.map Task.perform ++ [.iterate times steps]) ++ rest)
              intro next member
              rcases List.mem_append.1 member with step | last
              · obtain ⟨step, -, rfl⟩ := List.mem_map.1 step
                trivial
              · cases List.mem_singleton.1 last
                trivial
      | perform step =>
          obtain ⟨tasks, agenda, early⟩ := @outlasts_begin machine rest stopped step
          exact onward early agenda
      | _ => exact first.elim

theorem Kept.engine_step (kept : machine.Kept)
    (stopped : machine.world.engine.running = false) :
    machine.step.world.engine = machine.world.engine := by
  obtain ⟨bare, outlasts⟩ := kept.stopped stopped
  cases shape : machine.agenda with
  | nil => rw [step_of_nil shape]
  | cons task rest =>
      have first : task.Outlasts := outlasts task (by simp [shape])
      cases kept.turn shape with
      | moved moves free spares world agenda callers =>
          rw [world]
          exact (moves.moves [] [] []).gentle.stopped bare
      | steps steps scripted world agenda callers => rw [world]
      | collect world agenda callers => rw [world]
      | @drop held _ world agenda callers =>
          rw [world]
          exact World.engine_drop_reference _ _
      | settle world agenda callers =>
          rw [world]
          exact engine_settle_bridge _ _
      | shutDown alone world agenda callers =>
          rw [world]
          exact bare.symm
      | _ => exact first.elim

/-- Only outside of all bodies is the engine torn down, where no work waits but steps. -/
theorem Kept.stopped_step (kept : machine.Kept)
    (stopped : machine.step.world.engine.running = false) :
    machine.step.world.engine = .stopped machine.step.world.engine.mode ∧
      ∀ next ∈ machine.step.agenda, next.Outlasts := by
  cases running : machine.world.engine.running with
  | false =>
      refine ⟨?_, kept.outlasts_step running⟩
      rw [kept.engine_step running]
      exact (kept.stopped running).1
  | true =>
      have runs : machine.step.world.engine.running = machine.world.engine.running →
          False := by
        intro same
        rw [stopped, running] at same
        cases same
      cases shape : machine.agenda with
      | nil =>
          rw [step_of_nil shape] at runs
          exact (runs rfl).elim
      | cons task rest =>
          have turn := kept.turn shape
          generalize machine.step = after at turn runs stopped
          cases turn with
          | @shutDown label keep _ alone world agenda callers =>
              refine ⟨by rw [world]; rfl, ?_⟩
              have depth := kept.depth
              rw [alone, List.length_nil, List.countP_eq_zero] at depth
              have none : ∀ next ∈ rest, next.leaves = false := by
                intro next member
                simpa using depth next (shape ▸ List.mem_cons_of_mem _ member)
              have layered : Layered (.perform (.act label .shutDown keep) :: rest) :=
                shape ▸ kept.layered
              have scripted := (layered_cons_iff.1 layered).1 trivial
              rw [level_eq_self none] at scripted
              intro next member
              rw [agenda] at member
              rcases List.mem_append.1 member with settle | later
              · obtain ⟨index, -, rfl⟩ := List.mem_map.1 settle
                trivial
              · rcases List.mem_cons.1 later with rfl | final
                · trivial
                · rcases List.mem_cons.1 final with rfl | waiting
                  · trivial
                  · have here := scripted next waiting
                    cases next <;> trivial
          | moved moves bare spares world agenda callers =>
              exact (runs (world ▸ (moves.moves [] [] []).running)).elim
          | leave moves agenda callers => exact (runs (moves.moves [] [] []).running).elim
          | steps steps scripted world agenda callers => exact (runs (by rw [world])).elim
          | enter world agenda callers => exact (runs (by rw [world])).elim
          | collect world agenda callers => exact (runs (by rw [world])).elim
          | release world agenda callers =>
              exact (runs (world ▸ (World.only_objects_release _ _).running)).elim
          | @drop held _ world agenda callers =>
              exact (runs (by rw [world, World.engine_drop_reference])).elim
          | @reclaim id object _ found last world agenda callers =>
              have moves := @World.moves_run_finalizer True machine.world [] trivial id
              exact (runs (world ▸ (moves.moves [] [] []).running)).elim
          | remove world agenda callers =>
              exact (runs (world ▸ (World.only_objects_remove_object _ _).running)).elim
          | drain world agenda callers =>
              exact (runs (world ▸ (World.only_objects_drain _ _).running)).elim
          | settle world agenda callers =>
              exact (runs (by rw [world, engine_settle_bridge])).elim
          | endCall world agenda callers =>
              refine (runs ?_).elim
              rw [world]
              exact congrArg Engine.running (engine_settle_bridge _ _)

theorem Kept.step (kept : machine.Kept) : machine.step.Kept := by
  cases shape : machine.agenda with
  | nil =>
      rw [step_of_nil shape]
      exact kept
  | cons task rest =>
      have turn := kept.turn shape
      obtain ⟨tasks, agenda, leftover⟩ := kept.leftover shape turn
      have guarded : Guarded machine.world [] (task :: rest) := shape ▸ kept.guarded
      have layers : Layered (task :: rest) := shape ▸ kept.layered
      obtain ⟨script, layered⟩ := layered_cons_iff.1 layers
      have depth := kept.depth
      rw [shape, ← List.singleton_append, List.countP_append] at depth
      refine ⟨kept.grasp_turn shape turn, ?_, ?_, ?_, ?_, kept.stopped_step⟩
      · rw [agenda]
        exact leftover.guarded.join (guarded.tail.transfer fun _ => turn.installed)
      · intro event member
        rw [agenda] at member
        rcases List.mem_append.1 member with early | later
        · exact leftover.told event early
        · exact kept.told event (shape ▸ List.mem_cons_of_mem task later)
      · rw [agenda]
        rcases leftover.layered with still | ⟨steps, scripted⟩ | ⟨steps, body, purpose, same⟩
        · exact layered.append still
        · exact layered.script scripted (script steps)
        · rw [same, List.append_assoc]
          refine Layered.script ?_ ?_ (by simp [level, Task.leaves])
          · exact layered_cons_iff.2 ⟨fun steps => steps.elim, layered⟩
          · intro next member
            obtain ⟨step, -, rfl⟩ := List.mem_map.1 member
            trivial
      · rw [agenda, List.countP_append]
        have balance := leftover.depth
        omega

end Leftovers

/-- A machine goes on by itself, or is given a step of the client once it has nothing to do. -/
inductive Next (machine : Machine) : Machine → Prop
  | step : Next machine machine.step
  | submit (step : Step) (idle : machine.agenda = []) : Next machine (machine.submit step)

/-- Clients and scripts have done anything whatever since the start. -/
def Attained (machine : Machine) : Prop :=
  ∃ setting, Relation.ReflTransGen Next (start setting) machine

section Attained

variable {machine : Machine}

theorem attained_start (setting : Setting) : (start setting).Attained := ⟨setting, .refl⟩

theorem Attained.step (attained : machine.Attained) : machine.step.Attained := by
  obtain ⟨setting, nexts⟩ := attained
  exact ⟨setting, nexts.tail .step⟩

theorem Attained.submit (attained : machine.Attained) (idle : machine.agenda = [])
    (step : Step) : (machine.submit step).Attained := by
  obtain ⟨setting, nexts⟩ := attained
  exact ⟨setting, nexts.tail (.submit step idle)⟩

theorem Attained.nexts (attained : machine.Attained) {later : Machine}
    (nexts : Relation.ReflTransGen Next machine later) : later.Attained := by
  obtain ⟨setting, ran⟩ := attained
  exact ⟨setting, ran.trans nexts⟩

theorem Attained.run (attained : machine.Attained) (fuel : Nat) :
    (machine.run fuel).Attained :=
  run_of_step Attained Attained attained attained (fun _ => Attained.step)
    (fun _ _ attained => attained.step) fuel

/-- The steps of a client are taken one after the other when the fuel is enough for each. -/
theorem Attained.run_all (fuel : Nat) {steps : List Step} (attained : machine.Attained)
    (idle : ∀ count < steps.length,
      (runAll fuel machine (steps.take count)).agenda.isEmpty = true) :
    (runAll fuel machine steps).Attained := by
  induction steps generalizing machine with
  | nil => exact attained
  | cons step steps induction =>
      have begins := List.isEmpty_iff.1 (idle 0 (Nat.succ_pos _))
      refine induction ((attained.submit begins step).run fuel) ?_
      intro count below
      exact idle (count + 1) (Nat.succ_lt_succ below)

/-- What holds at the start and is kept by every step and by every step of a client holds of
every machine that is attained. -/
theorem Attained.induction {motive : Machine → Prop} (starts : ∀ setting, motive (start setting))
    (steps : ∀ machine : Machine, machine.Attained → motive machine → motive machine.step)
    (submits : ∀ (machine : Machine) (step : Step), machine.Attained → machine.agenda = [] →
      motive machine → motive (machine.submit step))
    (attained : machine.Attained) : motive machine := by
  obtain ⟨setting, nexts⟩ := attained
  induction nexts with
  | refl => exact starts setting
  | tail before next induction =>
      cases next with
      | step => exact steps _ ⟨setting, before⟩ induction
      | submit step idle => exact submits _ step ⟨setting, before⟩ idle induction

theorem kept_start (setting : Setting) : (start setting).Kept := by
  refine ⟨⟨?_, ?_, ?_, ?_, ?_, ?_, ?_⟩, ?_, ?_, ?_, rfl, ?_⟩
  · exact ⟨NameMap.distinct_empty, NameMap.distinct_empty, NameMap.distinct_empty⟩
  · intro id member
    cases member
  · intro id bridge found
    simp [grasp, start, World.start, World.bridge?] at found
  · intro classId record found
    simp [grasp, start, World.start, Engine.start, Registry.empty, Registry.record?] at found
  · intro value
    rfl
  · intro id bridge found
    simp [grasp, start, World.start, World.bridge?] at found
  · intro id
    exact Nat.zero_le _
  · exact guarded_of_no_binds (by simp [start])
  · intro event member
    cases member
  · intro early task late shape
    exact absurd shape.symm (by simp [start])
  · intro stopped
    cases stopped

theorem Kept.submit (kept : machine.Kept) (idle : machine.agenda = []) (step : Step) :
    (machine.submit step).Kept := by
  have agenda : (machine.submit step).agenda = [.perform step] := by
    simp [Machine.submit, idle]
  have grasped : (machine.submit step).grasp = machine.grasp := by
    simp only [Machine.grasp, agenda, idle]
    rfl
  refine ⟨grasped ▸ kept.grasp, ?_, ?_, ?_, ?_, ?_⟩
  · rw [agenda]
    exact guarded_of_no_binds (by simp [Task.Binds])
  · rw [agenda]
    simp
  · rw [agenda]
    exact layered_cons_iff.2 ⟨fun _ next member => (List.not_mem_nil member).elim,
      idle ▸ kept.layered⟩
  · have depth := kept.depth
    rw [idle] at depth
    rw [agenda]
    exact depth
  · intro stopped
    refine ⟨(kept.stopped stopped).1, ?_⟩
    intro next member
    rw [agenda] at member
    cases List.mem_singleton.1 member
    trivial

theorem Attained.kept (attained : machine.Attained) : machine.Kept :=
  attained.induction kept_start (fun _ _ => Kept.step) fun _ step _ idle kept =>
    kept.submit idle step

end Attained

def NextInBounds (machine later : Machine) : Prop := Next machine later ∧ later.world.InBounds

/-- Clients and scripts have done anything whatever since the start, and every count has stayed in
bounds at every step. -/
def AttainedInBounds (machine : Machine) : Prop :=
  ∃ setting, Relation.ReflTransGen NextInBounds (start setting) machine

section Bounds

variable {machine : Machine}

theorem attained_in_bounds_start (setting : Setting) : (start setting).AttainedInBounds :=
  ⟨setting, .refl⟩

theorem AttainedInBounds.attained (attained : machine.AttainedInBounds) : machine.Attained := by
  obtain ⟨setting, nexts⟩ := attained
  exact ⟨setting, Relation.ReflTransGen.mono (fun _ _ => And.left) _ _ nexts⟩

theorem AttainedInBounds.submit (attained : machine.AttainedInBounds) (idle : machine.agenda = [])
    {step : Step} (bounds : (machine.submit step).world.InBounds) :
    (machine.submit step).AttainedInBounds := by
  obtain ⟨setting, nexts⟩ := attained
  exact ⟨setting, nexts.tail ⟨.submit step idle, bounds⟩⟩

theorem AttainedInBounds.run (attained : machine.AttainedInBounds) (stays : machine.StaysInBounds)
    (fuel : Nat) : (machine.run fuel).AttainedInBounds := by
  induction fuel generalizing machine with
  | zero => exact attained
  | succ fuel induction =>
      unfold Machine.run
      split
      · exact attained
      · rename_i busy
        have onward : ∀ more, machine.step.run more = machine.run (more + 1) := by
          intro more
          simp [Machine.run, busy]
        obtain ⟨setting, nexts⟩ := attained
        have later : machine.step.StaysInBounds := by
          intro more
          rw [onward]
          exact stays (more + 1)
        exact induction ⟨setting, nexts.tail ⟨.step, later 0⟩⟩ later

theorem AttainedInBounds.run_all {fuel : Nat} {steps : List Step}
    (attained : machine.AttainedInBounds) (idle : machine.agenda = [])
    (checked : checkBoundsAll fuel machine steps = true) :
    (runAll fuel machine steps).AttainedInBounds := by
  induction steps generalizing machine with
  | nil => exact attained
  | cons step steps induction =>
      obtain ⟨first, others⟩ := Bool.and_eq_true_iff.1 checked
      have stays := stays_in_bounds_of_check first
      exact induction ((attained.submit idle (stays 0)).run stays fuel) (idle_of_check first) others

end Bounds

inductive Inside (rest : List Task) (machine : Machine) : Machine → Prop
  | refl : Inside rest machine machine
  | step {later : Machine} {task : Task} {front : List Task} (inside : Inside rest machine later)
      (shape : later.agenda = task :: (front ++ rest)) : Inside rest machine later.step

section Inside

variable {machine later : Machine} {rest : List Task} {task : Task}

theorem Attained.agenda_step (attained : machine.Attained)
    (shape : machine.agenda = task :: rest) :
    ∃ tasks, machine.step.agenda = tasks ++ rest := by
  obtain ⟨tasks, agenda, -⟩ := attained.kept.leftover shape (attained.kept.turn shape)
  exact ⟨tasks, agenda⟩

theorem Inside.attained (inside : Inside rest machine later) (attained : machine.Attained) :
    later.Attained := by
  induction inside with
  | refl => exact attained
  | step _ _ induction => exact induction.step

end Inside

end Machine

end ScriptSignal
