import ScriptSignal.Proofs.Commands

/-!
# Finalizers leave the frame alone

A finalizer that is a body runs in a frame of its own, and so do all bodies that it enters. To give
references back may run any number of them within each other, but none answers the step under way:
its frame is the same when all of them have ended.
-/

namespace ScriptSignal

set_option autoImplicit false

def Task.Unheard : Task → Prop
  | .release _ | .drop _ | .reclaim _ | .remove _ | .report _ => True
  | .enter _ _ _ purpose => purpose = .finalize
  | _ => False

namespace Machine

/-- Bodies are under way that a finalizer began above a frame, with such work below. -/
inductive Deeper (frame : Frame) (callers : List Frame) (rest : List Task) :
    Frame → List Frame → List Task → Prop
  | entered {inner : Frame} {early late : List Task} {body : Body}
      (stays : ∀ task ∈ early, task.leaves = false) (quiet : ∀ task ∈ late, task.Unheard) :
      Deeper frame callers rest inner (frame :: callers)
        (early ++ .leave body .finalize :: (late ++ rest))
  | within {inner caller : Frame} {above : List Frame} {early late : List Task} {body : Body}
      {purpose : Purpose} (stays : ∀ task ∈ early, task.leaves = false)
      (below : Deeper frame callers rest caller above late) :
      Deeper frame callers rest inner (caller :: above) (early ++ .leave body purpose :: late)

def Framed (frame : Frame) (callers : List Frame) (rest : List Task) (machine : Machine) : Prop :=
  (machine.frame = frame ∧ machine.callers = callers ∧
      ∃ front, machine.agenda = front ++ rest ∧ ∀ task ∈ front, task.Unheard) ∨
    Deeper frame callers rest machine.frame machine.callers machine.agenda

section Frames

variable {machine later : Machine} {frame : Frame} {callers : List Frame} {rest front : List Task}
  {task : Task}

theorem Deeper.reframe {inner : Frame} {above : List Frame} {tasks : List Task}
    (deeper : Deeper frame callers rest inner above tasks) (other : Frame) :
    Deeper frame callers rest other above tasks := by
  cases deeper with
  | entered stays quiet => exact .entered stays quiet
  | within stays below => exact .within stays below

theorem Deeper.longer {inner : Frame} {above : List Frame} {tasks : List Task}
    (deeper : Deeper frame callers rest inner above tasks) : rest.length < tasks.length := by
  induction deeper with
  | entered => simp only [List.length_append, List.length_cons]; omega
  | within _ _ induction => simp only [List.length_append, List.length_cons]; omega

theorem unheard_of_reclaim (world : World) (id : ObjectId) :
    ∀ next ∈ (world.reclaim id).2, next.Unheard := by
  intro next member
  unfold World.reclaim at member
  split at member
  · cases member
  · split at member
    · rcases List.mem_append.1 member with early | last
      · rcases World.task_of_finalizer early with ⟨held, rfl⟩ | ⟨body, receiver, arguments, rfl⟩
        · trivial
        · rfl
      · cases List.mem_singleton.1 last
        trivial
    · cases member

/-- Work that is not heard of leaves the frame alone, or enters a body above it. -/
theorem framed_step_level (shape : machine.agenda = task :: (front ++ rest))
    (quiet : ∀ next ∈ task :: front, next.Unheard) :
    Framed machine.frame machine.callers rest machine.step := by
  have unheard := quiet task List.mem_cons_self
  have others : ∀ next ∈ front, next.Unheard := fun next member =>
    quiet next (List.mem_cons_of_mem task member)
  have onward : ∀ (after : Machine) (tasks : List Task), after.frame = machine.frame →
      after.callers = machine.callers → after.agenda = tasks ++ (front ++ rest) →
      (∀ next ∈ tasks, next.Unheard) → Framed machine.frame machine.callers rest after := by
    intro after tasks same callers agenda early
    refine .inl ⟨same, callers, tasks ++ front, by rw [agenda, List.append_assoc], ?_⟩
    intro next member
    exact (List.mem_append.1 member).elim (early next) (others next)
  rw [step_of_cons shape]
  cases task with
  | release value =>
      refine onward _ _ rfl rfl rfl fun next member => ?_
      obtain ⟨id, -, -, rfl⟩ := World.task_of_release member
      trivial
  | drop held =>
      refine onward _ _ rfl rfl rfl fun next member => ?_
      cases World.task_of_drop_reference member
      trivial
  | reclaim id => exact onward _ _ rfl rfl rfl (unheard_of_reclaim machine.world id)
  | remove id =>
      refine onward _ _ rfl rfl rfl fun next member => ?_
      obtain ⟨value, rfl⟩ := releases_of_remove_object machine.world id next member
      trivial
  | report event => exact onward _ [] rfl rfl rfl (by simp)
  | enter body receiver arguments purpose =>
      have finalizes : purpose = .finalize := unheard
      subst finalizes
      simp only [carryOut, enter]
      split
      · refine .inr ?_
        simp only [schedule, List.append_assoc, List.singleton_append]
        exact .entered (by simp [Task.leaves]) others
      · exact onward _ [] rfl rfl rfl (by simp)
  | _ => exact unheard.elim

/-- A step within a body stays above the frame, until the finalizer ends. -/
theorem framed_step_deeper (attained : machine.Attained)
    (deeper : Deeper frame callers rest machine.frame machine.callers machine.agenda) :
    Framed frame callers rest machine.step := by
  -- a step that ends no body stays within it, or enters one more
  have stays : ∀ {first : Task} {early late : List Task} {body : Body} {purpose : Purpose},
      machine.agenda = first :: (early ++ .leave body purpose :: late) →
      (∀ next ∈ first :: early, next.leaves = false) →
      (∀ {inner : Frame} {more : List Task}, (∀ next ∈ more, next.leaves = false) →
        Deeper frame callers rest inner machine.callers (more ++ .leave body purpose :: late)) →
      Framed frame callers rest machine.step := by
    intro first early late body purpose shape within onward
    have others : ∀ next ∈ early, next.leaves = false := fun next member =>
      within next (List.mem_cons_of_mem first member)
    rcases attained.kept.level_step shape (within first List.mem_cons_self) with
      ⟨tasks, agenda, quiet, same⟩ | ⟨inner, ending, agenda, further⟩
    · right
      rw [same, agenda, ← List.append_assoc]
      apply onward
      intro next member
      exact (List.mem_append.1 member).elim (quiet next) (others next)
    · right
      rw [further, agenda]
      exact .within (by simp [Task.leaves]) (onward others)
  generalize level : machine.callers = above at deeper stays
  generalize shape : machine.agenda = agenda at deeper stays
  cases deeper with
  | @entered _ early late body within quiet =>
      cases early with
      | nil =>
          obtain ⟨left, same, framed⟩ :=
            @parts_leave { machine with agenda := late ++ rest } frame callers level body .finalize
          left
          rw [step_of_cons shape]
          exact ⟨framed rfl, same, late, left, quiet⟩
      | cons first early => exact stays rfl within fun quieter => .entered quieter quiet
  | @within _ caller above early late body purpose within below =>
      cases early with
      | nil =>
          obtain ⟨left, same, -⟩ :=
            @parts_leave { machine with agenda := late } caller above level body purpose
          right
          rw [step_of_cons shape]
          change Deeper frame callers rest (Machine.leave _ body purpose).frame
            (Machine.leave _ body purpose).callers (Machine.leave _ body purpose).agenda
          rw [left, same]
          exact below.reframe _
      | cons first early => exact stays rfl within fun quieter => .within quieter below

/-- When work that is not heard of is done, the frame is as it was. -/
theorem Finishes.framed (finishes : Finishes rest machine later) (attained : machine.Attained)
    (shape : machine.agenda = front ++ rest) (quiet : ∀ task ∈ front, task.Unheard) :
    later.frame = machine.frame ∧ later.callers = machine.callers := by
  obtain ⟨inside, agenda⟩ := finishes
  have framed : Framed machine.frame machine.callers rest later := by
    clear agenda
    induction inside with
    | refl => exact .inl ⟨rfl, rfl, front, shape, quiet⟩
    | @step before task ahead inside here induction =>
        rcases induction with ⟨same, callers, waiting, agenda, unheard⟩ | deeper
        · have split : waiting = task :: ahead :=
            List.append_cancel_right (agenda.symm.trans here)
          subst split
          rw [← same, ← callers]
          exact framed_step_level here unheard
        · exact framed_step_deeper (inside.attained attained) deeper
  rcases framed with ⟨same, callers, -⟩ | deeper
  · exact ⟨same, callers⟩
  · have longer := deeper.longer
    rw [agenda] at longer
    exact absurd longer (Nat.lt_irrefl _)

end Frames

end Machine

end ScriptSignal
