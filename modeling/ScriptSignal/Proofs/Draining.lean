import Mathlib.Data.List.Infix
import Mathlib.Logic.Function.Iterate
import ScriptSignal.Backlog.Drain

/-!
# What a re-entrant drain hands over

A drain is judged by its history: the items that were deferred, the items that were
handed to the callback, and the counts that nested drains returned. Between any two
steps what was handed over, followed by what still waits, is what was deferred. So no
item is skipped or seen twice, on whatever level it is taken. Each handing over is
counted by exactly one loop, the one that took the item. A callback that defers only
so many items lets the drain end, since between two items a reaction can only be
carried out to its end.
-/

namespace ScriptSignal

set_option autoImplicit false

universe u

namespace Backlog

variable {α : Type u}

def History.deferred : History α → List α
  | [] => []
  | .deferred item :: earlier => History.deferred earlier ++ [item]
  | .handed _ _ :: earlier => History.deferred earlier
  | .drained _ :: earlier => History.deferred earlier

def History.handed : History α → List α
  | [] => []
  | .deferred _ :: earlier => History.handed earlier
  | .handed item _ :: earlier => History.handed earlier ++ [item]
  | .drained _ :: earlier => History.handed earlier

/-- What the nested drains that are over returned, all together. -/
def History.returned : History α → Nat
  | [] => 0
  | .deferred _ :: earlier => History.returned earlier
  | .handed _ _ :: earlier => History.returned earlier
  | .drained count :: earlier => History.returned earlier + count

namespace Drain

/-- What stands below a drain: the callback that called it, then the loop that called
that callback, and so on down to the outermost drain. -/
inductive Nested : List (Chore α) → Prop
  | outermost : Nested []
  | inside {next : History α → Reaction α} {count : Nat} {below : List (Chore α)} :
      Nested below → Nested (.resume next :: .drain count :: below)

inductive Framed : List (Chore α) → Prop
  | returned {below : List (Chore α)} : Nested below → Framed below
  | started {below : List (Chore α)} : Nested below → Framed (.start :: below)
  | draining {count : Nat} {below : List (Chore α)} :
      Nested below → Framed (.drain count :: below)
  | reacting {reaction : Reaction α} {count : Nat} {below : List (Chore α)} :
      Nested below → Framed (.react reaction :: .drain count :: below)

/-- What the loops that are not over counted so far. -/
def underway : List (Chore α) → Nat
  | [] => 0
  | .drain count :: below => underway below + count
  | .start :: below => underway below
  | .react _ :: below => underway below
  | .resume _ :: below => underway below

/-- The count of a drain that is over and that nobody took note of yet. -/
def unrecorded (state : Drain α) : Nat :=
  match state.agenda with
  | [] => state.returned
  | .resume _ :: _ => state.returned
  | .start :: _ => 0
  | .drain _ :: _ => 0
  | .react _ :: _ => 0

theorem unrecorded_of_nested {state : Drain α} (nested : Nested state.agenda) :
    state.unrecorded = state.returned := by
  obtain ⟨backlog, history, agenda, returned⟩ := state
  cases nested with
  | outermost => rfl
  | inside below => rfl

structure Lawful (past : History α) (state : Drain α) : Prop where
  order : state.history.handed ++ state.backlog.items = state.history.deferred
  counted : state.backlog.Counted
  framed : Framed state.agenda
  emptied : Nested state.agenda → state.backlog.items = []
  summed : ∃ during : History α, state.history = during ++ past ∧
    during.handed.length = during.returned + underway state.agenda + state.unrecorded

theorem items_of_not_pending {backlog : Backlog α} (counted : backlog.Counted)
    (none : backlog.hasPending = false) : backlog.items = [] := by
  have size : backlog.pending = backlog.items.length := counted
  have zero : backlog.pending = 0 := by simpa [hasPending] using none
  exact List.length_eq_zero_iff.1 (size.symm.trans zero)

theorem not_nested_start {below : List (Chore α)} : ¬ Nested (.start :: below) := by
  intro nested
  cases nested

theorem not_nested_drain {count : Nat} {below : List (Chore α)} :
    ¬ Nested (.drain count :: below) := by
  intro nested
  cases nested

theorem not_nested_react {reaction : Reaction α} {below : List (Chore α)} :
    ¬ Nested (.react reaction :: below) := by
  intro nested
  cases nested

variable {past : History α}

/-- A drain returns at once when nothing waits, and begins its loop otherwise. -/
theorem lawful_of_started {state : Drain α} {below : List (Chore α)}
    (lawful : Lawful past state) (top : state.agenda = .start :: below) (nested : Nested below)
    (callback : Callback α) : Lawful past (state.step callback) := by
  obtain ⟨backlog, history, agenda, returned⟩ := state
  obtain ⟨order, counted, framed, emptied, during, split, summed⟩ := lawful
  simp only at top
  subst top
  cases waiting : backlog.hasPending with
  | true =>
      simp only [step, waiting, if_true]
      exact ⟨order, counted, .draining nested, fun absurd => (not_nested_drain absurd).elim,
        during, split, summed⟩
  | false =>
      simp only [step, waiting, Bool.false_eq_true, if_false]
      refine ⟨order, counted, .returned nested, fun _ => items_of_not_pending counted waiting,
        during, split, ?_⟩
      rw [unrecorded_of_nested nested]
      exact summed

/-- The loop takes the next item, or returns its count when there is none. -/
theorem lawful_of_draining {state : Drain α} {count : Nat} {below : List (Chore α)}
    (lawful : Lawful past state) (top : state.agenda = .drain count :: below)
    (nested : Nested below) (callback : Callback α) : Lawful past (state.step callback) := by
  obtain ⟨backlog, history, agenda, returned⟩ := state
  obtain ⟨order, counted, framed, emptied, during, split, summed⟩ := lawful
  simp only at top split order counted
  subst top
  cases taken : backlog.next? with
  | none =>
      simp only [step, taken]
      refine ⟨order, counted, .returned nested, fun _ => items_eq_nil_of_next taken,
        during, split, ?_⟩
      rw [unrecorded_of_nested nested]
      simp only [underway, unrecorded] at summed
      simp only
      omega
  | some next =>
      obtain ⟨item, rest⟩ := next
      simp only [step, taken]
      refine ⟨?_, counted_next counted taken, .reacting nested,
        fun absurd => (not_nested_react absurd).elim,
        .handed item rest.pending :: during, by rw [split]; rfl, ?_⟩
      · rw [items_eq_cons_of_next taken] at order
        simp only [History.handed, History.deferred, List.append_assoc, List.singleton_append]
        exact order
      · simp only [underway, unrecorded] at summed
        simp only [History.handed, History.returned, underway, unrecorded, List.length_append,
          List.length_singleton]
        omega

theorem lawful_of_reacting {state : Drain α} {reaction : Reaction α} {count : Nat}
    {below : List (Chore α)} (lawful : Lawful past state)
    (top : state.agenda = .react reaction :: .drain count :: below) (nested : Nested below)
    (callback : Callback α) : Lawful past (state.step callback) := by
  obtain ⟨backlog, history, agenda, returned⟩ := state
  obtain ⟨order, counted, framed, emptied, during, split, summed⟩ := lawful
  simp only at top split order counted
  subst top
  cases reaction with
  | done =>
      exact ⟨order, counted, .draining nested, fun absurd => (not_nested_drain absurd).elim,
        during, split, summed⟩
  | defer item next =>
      refine ⟨?_, counted_defer counted item, .reacting nested,
        fun absurd => (not_nested_react absurd).elim,
        .deferred item :: during, by simp [step, Drain.defer, split], summed⟩
      simp only [step, Drain.defer, items_defer, History.handed, History.deferred]
      rw [← List.append_assoc, order]
  | drain next =>
      exact ⟨order, counted, .started (.inside nested),
        fun absurd => (not_nested_start absurd).elim, during, split, summed⟩

/-- The callback sees what the nested drain returned and goes on. -/
theorem lawful_of_resuming {state : Drain α} {next : History α → Reaction α} {count : Nat}
    {below : List (Chore α)} (lawful : Lawful past state)
    (top : state.agenda = .resume next :: .drain count :: below) (nested : Nested below)
    (callback : Callback α) : Lawful past (state.step callback) := by
  obtain ⟨backlog, history, agenda, returned⟩ := state
  obtain ⟨order, counted, framed, emptied, during, split, summed⟩ := lawful
  simp only at top split order counted
  subst top
  refine ⟨order, counted, .reacting nested, fun absurd => (not_nested_react absurd).elim,
    .drained returned :: during, by simp [step, split], ?_⟩
  simp only [underway, unrecorded] at summed
  simp only [step, History.handed, History.returned, underway, unrecorded]
  omega

theorem lawful_step {state : Drain α} (lawful : Lawful past state) (callback : Callback α) :
    Lawful past (state.step callback) := by
  have framed := lawful.framed
  generalize agenda_eq : state.agenda = agenda at framed
  cases framed with
  | returned nested =>
      cases nested with
      | outermost =>
          have still : state.step callback = state := by simp [step, agenda_eq]
          rw [still]
          exact lawful
      | inside below => exact lawful_of_resuming lawful agenda_eq below callback
  | started nested => exact lawful_of_started lawful agenda_eq nested callback
  | draining nested => exact lawful_of_draining lawful agenda_eq nested callback
  | reacting nested => exact lawful_of_reacting lawful agenda_eq nested callback

theorem run_eq_iterate (callback : Callback α) (fuel : Nat) (state : Drain α) :
    run callback fuel state = (step callback)^[fuel] state := by
  induction fuel generalizing state with
  | zero => rfl
  | succ fuel ih =>
      simp only [run, Function.iterate_succ, Function.comp_apply]
      split
      · rename_i ended
        have still : state.step callback = state := by
          simp [step, List.isEmpty_iff.1 ended]
        rw [still]
        exact (Function.iterate_fixed still fuel).symm
      · exact ih (state.step callback)

theorem lawful_run {state : Drain α} (lawful : Lawful past state) (callback : Callback α)
    (fuel : Nat) : Lawful past (run callback fuel state) := by
  rw [run_eq_iterate]
  induction fuel with
  | zero => exact lawful
  | succ fuel ih =>
      rw [Function.iterate_succ_apply']
      exact lawful_step ih callback

/-- The queues that defers and drains from outside lead to, between two of these calls.
Each drain may have a callback of its own. -/
inductive Reached : Drain α → Prop
  | idle : Reached .idle
  | defer {state : Drain α} (item : α) : Reached state → Reached (state.defer item)
  | process {state : Drain α} (callback : Callback α) (fuel : Nat) :
      Reached state → (state.process callback fuel).agenda = [] →
      Reached (state.process callback fuel)

theorem lawful_start {state : Drain α}
    (order : state.history.handed ++ state.backlog.items = state.history.deferred)
    (counted : state.backlog.Counted) :
    Lawful state.history { state with agenda := [.start] } where
  order := order
  counted := counted
  framed := .started .outermost
  emptied absurd := (not_nested_start absurd).elim
  summed := ⟨[], rfl, rfl⟩

theorem reached_in_order {state : Drain α} (reached : Reached state) :
    state.history.handed ++ state.backlog.items = state.history.deferred ∧
      state.backlog.Counted := by
  induction reached with
  | idle => exact ⟨rfl, counted_empty⟩
  | @defer state item reached ih =>
      obtain ⟨order, counted⟩ := ih
      refine ⟨?_, counted_defer counted item⟩
      simp only [Drain.defer, items_defer, History.handed, History.deferred]
      rw [← List.append_assoc, order]
  | process callback fuel reached ended ih =>
      have lawful := lawful_run (lawful_start ih.1 ih.2) callback fuel
      exact ⟨lawful.order, lawful.counted⟩

theorem lawful_process {before : Drain α} (reached : Reached before) (callback : Callback α)
    (fuel : Nat) : Lawful before.history (before.process callback fuel) :=
  lawful_run (lawful_start (reached_in_order reached).1 (reached_in_order reached).2) callback fuel

def Ends (callback : Callback α) (state : Drain α) : Prop :=
  ∃ fuel, ((step callback)^[fuel] state).agenda = []

def Bounded (callback : Callback α) (bound : Nat) (state : Drain α) : Prop :=
  ∀ fuel, ((step callback)^[fuel] state).history.deferred.length ≤ bound

variable {callback : Callback α} {bound : Nat}

theorem ends_of_step {state : Drain α} (later : Ends callback (state.step callback)) :
    Ends callback state := by
  obtain ⟨fuel, ended⟩ := later
  exact ⟨fuel + 1, ended⟩

theorem Bounded.step {state : Drain α} (bounded : Bounded callback bound state) :
    Bounded callback bound (state.step callback) := fun fuel => bounded (fuel + 1)

def EndsFrom (callback : Callback α) (past : History α) (bound handed : Nat)
    (agenda : List (Chore α)) : Prop :=
  ∀ state : Drain α, Lawful past state → Bounded callback bound state →
    state.history.handed.length = handed → state.agenda = agenda → Ends callback state

def EndsAbove (callback : Callback α) (past : History α) (bound handed : Nat) : Prop :=
  ∀ more agenda, handed < more → EndsFrom callback past bound more agenda

theorem ends_from_drain {handed count : Nat} {below : List (Chore α)}
    (above : EndsAbove callback past bound handed)
    (ends : EndsFrom callback past bound handed below) :
    EndsFrom callback past bound handed (.drain count :: below) := by
  intro state lawful bounded same top
  apply ends_of_step
  have next := lawful_step lawful callback
  cases taken : state.backlog.next? with
  | none =>
      have step_eq : state.step callback = { state with agenda := below, returned := count } := by
        simp [step, top, taken]
      apply ends _ next bounded.step
      · rw [step_eq]
        exact same
      · rw [step_eq]
  | some pair =>
      obtain ⟨item, rest⟩ := pair
      apply above (handed + 1) _ (Nat.lt_succ_self handed) _ next bounded.step _ rfl
      simp [step, top, taken, History.handed, same]

theorem ends_from_start {handed : Nat} {below : List (Chore α)}
    (above : EndsAbove callback past bound handed)
    (ends : EndsFrom callback past bound handed below) :
    EndsFrom callback past bound handed (.start :: below) := by
  intro state lawful bounded same top
  apply ends_of_step
  have next := lawful_step lawful callback
  cases waiting : state.backlog.hasPending with
  | true =>
      have step_eq : state.step callback = { state with agenda := .drain 0 :: below } := by
        simp [step, top, waiting]
      apply ends_from_drain above ends _ next bounded.step
      · rw [step_eq]
        exact same
      · rw [step_eq]
  | false =>
      have step_eq : state.step callback = { state with agenda := below, returned := 0 } := by
        simp [step, top, waiting]
      apply ends _ next bounded.step
      · rw [step_eq]
        exact same
      · rw [step_eq]

theorem ends_from_resume {handed : Nat} {next : History α → Reaction α} {below : List (Chore α)}
    (each : ∀ history, EndsFrom callback past bound handed (.react (next history) :: below)) :
    EndsFrom callback past bound handed (.resume next :: below) := by
  intro state lawful bounded same top
  have step_eq : state.step callback =
      { state with
        history := .drained state.returned :: state.history
        agenda := .react (next (.drained state.returned :: state.history)) :: below } := by
    simp [step, top]
  apply ends_of_step
  apply each (.drained state.returned :: state.history) _ (lawful_step lawful callback)
    bounded.step
  · rw [step_eq]
    exact same
  · rw [step_eq]

/-- A reaction comes to its end between two items: a drain that it calls either takes an
item or returns at once. -/
theorem ends_from_react {handed : Nat} {below : List (Chore α)}
    (above : EndsAbove callback past bound handed)
    (ends : EndsFrom callback past bound handed below) (reaction : Reaction α) :
    EndsFrom callback past bound handed (.react reaction :: below) := by
  induction reaction with
  | done =>
      intro state lawful bounded same top
      have step_eq : state.step callback = { state with agenda := below } := by simp [step, top]
      apply ends_of_step
      apply ends _ (lawful_step lawful callback) bounded.step
      · rw [step_eq]
        exact same
      · rw [step_eq]
  | defer item next ih =>
      intro state lawful bounded same top
      have step_eq : state.step callback =
          { state.defer item with agenda := .react next :: below } := by
        simp [step, top]
      apply ends_of_step
      apply ih _ (lawful_step lawful callback) bounded.step
      · rw [step_eq]
        exact same
      · rw [step_eq]
  | drain next ih =>
      have resumed := ends_from_resume ih
      intro state lawful bounded same top
      have step_eq : state.step callback =
          { state with agenda := .start :: .resume next :: below } := by
        simp [step, top]
      apply ends_of_step
      apply ends_from_start above resumed _ (lawful_step lawful callback) bounded.step
      · rw [step_eq]
        exact same
      · rw [step_eq]

theorem ends_from_agenda {handed : Nat} (above : EndsAbove callback past bound handed)
    (agenda : List (Chore α)) : EndsFrom callback past bound handed agenda := by
  induction agenda with
  | nil =>
      intro state lawful bounded same top
      exact ⟨0, top⟩
  | cons chore below ih =>
      cases chore with
      | start => exact ends_from_start above ih
      | drain count => exact ends_from_drain above ih
      | react reaction => exact ends_from_react above ih reaction
      | resume next => exact ends_from_resume fun history => ends_from_react above ih (next history)

/-- As many items can still be handed over as may still be deferred. -/
theorem ends_of_bounded {state : Drain α} (lawful : Lawful past state)
    (bounded : Bounded callback bound state) : Ends callback state := by
  have all : ∀ left handed agenda, bound - handed ≤ left →
      EndsFrom callback past bound handed agenda := by
    intro left
    induction left with
    | zero =>
        intro handed agenda spent
        -- Nothing can be handed over any more, so a higher count never occurs.
        refine ends_from_agenda ?_ agenda
        intro more agenda higher later lawful bounded same top
        have within : later.history.deferred.length ≤ bound := bounded 0
        rw [← lawful.order, List.length_append, same] at within
        omega
    | succ left ih =>
        intro handed agenda few
        refine ends_from_agenda ?_ agenda
        intro more agenda higher
        exact ih more agenda (by omega)
  exact all (bound - state.history.handed.length) _ _ (Nat.le_refl _) state lawful bounded rfl rfl

theorem deferred_length_step (state : Drain α) :
    state.history.deferred.length ≤ (state.step callback).history.deferred.length := by
  unfold step
  split
  · exact Nat.le_refl _
  · split <;> exact Nat.le_refl _
  · split <;> exact Nat.le_refl _
  · exact Nat.le_refl _
  · simp [Drain.defer, History.deferred]
  · exact Nat.le_refl _
  · exact Nat.le_refl _

theorem deferred_length_iterate (state : Drain α) {early late : Nat} (order : early ≤ late) :
    ((step callback)^[early] state).history.deferred.length ≤
      ((step callback)^[late] state).history.deferred.length := by
  induction order with
  | refl => exact Nat.le_refl _
  | @step late order ih =>
      rw [Function.iterate_succ_apply']
      exact Nat.le_trans ih (deferred_length_step _)

theorem iterate_of_ended {state : Drain α} {fuel : Nat}
    (ended : ((step callback)^[fuel] state).agenda = []) {later : Nat} (order : fuel ≤ later) :
    (step callback)^[later] state = (step callback)^[fuel] state := by
  induction order with
  | refl => rfl
  | step order ih =>
      rw [Function.iterate_succ_apply', ih]
      simp [step, ended]

/-- The callback defers so many items in all, from the beginning of the drain on. -/
def Defers (callback : Callback α) (before : Drain α) (total : Nat) : Prop :=
  (∀ fuel, (before.process callback fuel).history.deferred.length ≤
      before.history.deferred.length + total) ∧
    ∃ fuel, (before.process callback fuel).history.deferred.length =
      before.history.deferred.length + total

/-- A moment of a drain. A nested drain has just returned where a callback is about to be
taken up again, and the outermost one where nothing is left to do. -/
structure Faithful (before now : Drain α) : Prop where
  order : now.history.handed <+: now.history.deferred
  pending : now.backlog.pending = now.history.deferred.length - now.history.handed.length
  size : now.backlog.pending = now.backlog.items.length
  idle : now.backlog.hasPending = false ↔ now.backlog.items = []
  nested : ∀ next below, now.agenda = .resume next :: below → now.backlog.items = []
  outermost : now.agenda = [] → now.backlog.items = [] ∧
    ∃ during : History α, now.history = during ++ before.history ∧
      during.returned + now.returned = during.handed.length

theorem Lawful.faithful {before now : Drain α} (lawful : Lawful before.history now) :
    Faithful before now where
  order := ⟨now.backlog.items, lawful.order⟩
  pending := by
    have count : now.backlog.pending = now.backlog.items.length := lawful.counted
    rw [← lawful.order, List.length_append, count]
    omega
  size := lawful.counted
  idle := by
    refine ⟨items_of_not_pending lawful.counted, fun none => ?_⟩
    have count : now.backlog.pending = now.backlog.items.length := lawful.counted
    simp [hasPending, count, none]
  nested next below top := by
    apply lawful.emptied
    have framed := lawful.framed
    rw [top] at framed ⊢
    cases framed with
    | returned nested => exact nested
  outermost top := by
    have nested : Nested now.agenda := top ▸ .outermost
    obtain ⟨during, split, summed⟩ := lawful.summed
    refine ⟨lawful.emptied nested, during, split, ?_⟩
    rw [unrecorded_of_nested nested, top] at summed
    simp only [underway] at summed
    omega

/-- A queue hands over what was deferred, in that order and once each, on whatever level a
drain takes it. It is empty whenever a drain returns, the counts that are returned are the
items handed over, and a drain in which so many items are deferred ends. -/
theorem exactly_once_in_order {before : Drain α} (reached : Reached before)
    (callback : Callback α) :
    (∀ fuel, Faithful before (before.process callback fuel)) ∧
      ∀ total, Defers callback before total →
        ∃ fuel, (before.process callback fuel).agenda = [] ∧
          (before.process callback fuel).history.handed.length =
            before.history.handed.length + (before.backlog.pending + total) := by
  refine ⟨fun fuel => (lawful_process reached callback fuel).faithful, ?_⟩
  intro total defers
  obtain ⟨within, enough, all⟩ := defers
  obtain ⟨order, counted⟩ := reached_in_order reached
  simp only [process, run_eq_iterate] at within all ⊢
  obtain ⟨fuel, ended⟩ := ends_of_bounded (lawful_start order counted) within
  have law := lawful_process reached callback fuel
  simp only [process, run_eq_iterate] at law
  -- Where nothing is left to do, all that will be deferred was deferred.
  have most :
      ((step callback)^[enough] { before with agenda := [.start] }).history.deferred.length ≤
      ((step callback)^[fuel] { before with agenda := [.start] }).history.deferred.length := by
    rw [← iterate_of_ended ended (Nat.le_add_right fuel enough)]
    exact deferred_length_iterate _ (Nat.le_add_left enough fuel)
  have nested : Nested ((step callback)^[fuel] { before with agenda := [.start] }).agenda := by
    rw [ended]
    exact .outermost
  have last := congrArg List.length law.order
  rw [law.emptied nested, List.append_nil] at last
  have first := congrArg List.length order
  rw [List.length_append, ← counted] at first
  have least := within fuel
  exact ⟨fuel, ended, by omega⟩

/-- Each item brings the number below it and drains at once. -/
def countdown : Callback Nat := fun _ item =>
  match item with
  | 0 => .done
  | smaller + 1 => .defer smaller (.drain fun _ => .done)

theorem exactly_once_of_countdown :
    Reached ((idle.defer 2).defer 1) ∧ Defers countdown ((idle.defer 2).defer 1) 3 ∧
      Faithful ((idle.defer 2).defer 1) (((idle.defer 2).defer 1).process countdown 9) ∧
      ∃ fuel, (((idle.defer 2).defer 1).process countdown fuel).agenda = [] ∧
        (((idle.defer 2).defer 1).process countdown fuel).history.handed.length = 0 + (2 + 3) := by
  have reached : Reached ((idle.defer 2).defer 1) := .defer 1 (.defer 2 .idle)
  have defers : Defers countdown ((idle.defer 2).defer 1) 3 := by
    refine ⟨fun fuel => ?_, 40, by decide⟩
    rcases Nat.lt_or_ge fuel 40 with few | many
    · exact (by decide : ∀ fuel < 40, (((idle.defer 2).defer 1).process countdown
        fuel).history.deferred.length ≤ ((idle.defer 2).defer 1).history.deferred.length + 3)
        fuel few
    · have ended : ((step countdown)^[40]
          { (idle.defer 2).defer 1 with agenda := [.start] }).agenda = [] := by decide
      simp only [process, run_eq_iterate]
      rw [iterate_of_ended ended many]
      decide
  have law := exactly_once_in_order reached countdown
  exact ⟨reached, defers, law.1 9, law.2 3 defers⟩

end Drain

end Backlog

end ScriptSignal
