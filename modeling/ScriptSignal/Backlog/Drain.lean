import ScriptSignal.Backlog

/-!
# Draining a backlog with a callback

Every waiting item is handed to a callback, the longest waiting first. The
callback may put further items into the same backlog and may drain it in turn, so
draining is a small machine with an agenda: what is to be done next stands first.
A callback is a strategy. It sees all that happened so far and answers with its
reaction, and after a nested drain it sees what that brought before it goes on.
-/

namespace ScriptSignal

set_option autoImplicit false

universe u

namespace Backlog

inductive Happening (α : Type u)
  | deferred (item : α)
  /-- An item was handed over while so many were still waiting. -/
  | handed (item : α) (waiting : Nat)
  /-- A nested drain returned its count. -/
  | drained (count : Nat)
deriving Repr, DecidableEq

/-- All that happened, the latest first. -/
abbrev History (α : Type u) := List (Happening α)

inductive Reaction (α : Type u)
  | done
  | defer (item : α) (next : Reaction α)
  | drain (next : History α → Reaction α)

/-- The reaction to an item, after a history that does not have the item yet. -/
abbrev Callback (α : Type u) := History α → α → Reaction α

inductive Chore (α : Type u)
  /-- Begin to drain. -/
  | start
  /-- Go on draining after so many items. -/
  | drain (count : Nat)
  /-- Carry out what is left of a reaction. -/
  | react (reaction : Reaction α)
  /-- Take a reaction up again after its nested drain. -/
  | resume (next : History α → Reaction α)

structure Drain (α : Type u) where
  backlog : Backlog α
  history : History α
  agenda : List (Chore α)
  /-- The count that the latest finished drain returned. -/
  returned : Nat

namespace Drain

variable {α : Type u}

def idle : Drain α := ⟨.empty, [], [], 0⟩

def defer (state : Drain α) (item : α) : Drain α :=
  { state with
    backlog := state.backlog.defer item
    history := .deferred item :: state.history }

def step (callback : Callback α) (state : Drain α) : Drain α :=
  match state.agenda with
  | [] => state
  | .start :: rest =>
      if state.backlog.hasPending then { state with agenda := .drain 0 :: rest }
      else { state with agenda := rest, returned := 0 }
  | .drain count :: rest =>
      match state.backlog.next? with
      | some (item, backlog) =>
          { state with
            backlog
            history := .handed item backlog.pending :: state.history
            agenda := .react (callback state.history item) :: .drain (count + 1) :: rest }
      | none => { state with agenda := rest, returned := count }
  | .react .done :: rest => { state with agenda := rest }
  | .react (.defer item next) :: rest =>
      { state.defer item with agenda := .react next :: rest }
  | .react (.drain next) :: rest => { state with agenda := .start :: .resume next :: rest }
  | .resume next :: rest =>
      let history := .drained state.returned :: state.history
      { state with history, agenda := .react (next history) :: rest }

/-- Runs until nothing is left to do, or the fuel is spent. -/
def run (callback : Callback α) : Nat → Drain α → Drain α
  | 0, state => state
  | fuel + 1, state =>
      if state.agenda.isEmpty then state else run callback fuel (state.step callback)

def process (callback : Callback α) (fuel : Nat) (state : Drain α) : Drain α :=
  run callback fuel { state with agenda := [.start] }

end Drain

inductive Action (α : Type u)
  | defer (item : α)
  | drain
deriving Repr, DecidableEq

variable {α : Type u}

def Reaction.ofActions : List (Action α) → Reaction α
  | [] => .done
  | .defer item :: rest => .defer item (ofActions rest)
  | .drain :: rest => .drain fun _ => ofActions rest

def History.timesHanded [DecidableEq α] (history : History α) (item : α) : Nat :=
  history.countP fun
    | .handed other _ => other = item
    | _ => false

def Callback.planned [DecidableEq α] (plan : α → Nat → List (Action α)) : Callback α :=
  fun history item => .ofActions (plan item (History.timesHanded history item))

end Backlog

end ScriptSignal
