/-!
# Objects that wait for finalization

A first-in first-out queue with a count of its own, by which an empty queue is
recognised without looking into it.
-/

namespace ScriptSignal

set_option autoImplicit false

universe u

structure Backlog (α : Type u) where
  /-- Those that leave first, in their order. -/
  front : List α
  /-- Those that came last, the latest first. -/
  back : List α
  pending : Nat
deriving Repr, DecidableEq

namespace Backlog

variable {α : Type u}

def empty : Backlog α := ⟨[], [], 0⟩

instance : Inhabited (Backlog α) := ⟨empty⟩

def items (backlog : Backlog α) : List α := backlog.front ++ backlog.back.reverse

def defer (backlog : Backlog α) (item : α) : Backlog α :=
  { backlog with back := item :: backlog.back, pending := backlog.pending + 1 }

def hasPending (backlog : Backlog α) : Bool := 0 < backlog.pending

/-- The item that has waited longest, and the queue without it. -/
def next? (backlog : Backlog α) : Option (α × Backlog α) :=
  match backlog.front with
  | item :: rest => some (item, ⟨rest, backlog.back, backlog.pending - 1⟩)
  | [] =>
      match backlog.back.reverse with
      | item :: rest => some (item, ⟨rest, [], backlog.pending - 1⟩)
      | [] => none

@[simp] theorem items_empty : (empty : Backlog α).items = [] := rfl

@[simp] theorem items_defer (backlog : Backlog α) (item : α) :
    (backlog.defer item).items = backlog.items ++ [item] := by
  simp [items, defer]

theorem items_eq_cons_of_next {backlog rest : Backlog α} {item : α}
    (taken : backlog.next? = some (item, rest)) : backlog.items = item :: rest.items := by
  unfold next? at taken
  split at taken
  · rename_i head tail shape
    cases taken
    simp [items, shape]
  · rename_i shape
    split at taken
    · rename_i head tail reversed
      cases taken
      simp [items, shape, reversed]
    · cases taken

theorem items_eq_nil_of_next {backlog : Backlog α} (spent : backlog.next? = none) :
    backlog.items = [] := by
  unfold next? at spent
  split at spent
  · cases spent
  · rename_i shape
    split at spent
    · cases spent
    · rename_i reversed
      simp [items, shape, reversed]

theorem pending_of_next {backlog rest : Backlog α} {item : α}
    (taken : backlog.next? = some (item, rest)) : rest.pending = backlog.pending - 1 := by
  unfold next? at taken
  split at taken
  · cases taken
    rfl
  · split at taken
    · cases taken
      rfl
    · cases taken

def Counted (backlog : Backlog α) : Prop := backlog.pending = backlog.items.length

theorem counted_empty : (empty : Backlog α).Counted := rfl

theorem counted_defer {backlog : Backlog α} (counted : backlog.Counted) (item : α) :
    (backlog.defer item).Counted := by
  have count : backlog.pending = backlog.items.length := counted
  unfold Counted
  rw [items_defer, List.length_append, ← count]
  rfl

theorem counted_next {backlog rest : Backlog α} {item : α} (counted : backlog.Counted)
    (taken : backlog.next? = some (item, rest)) : rest.Counted := by
  have count : backlog.pending = backlog.items.length := counted
  have fewer := pending_of_next taken
  rw [items_eq_cons_of_next taken, List.length_cons] at count
  unfold Counted
  omega

def text (backlog : Backlog α) : String :=
  "DeferredFinalizationQueue \x7b pending_count: " ++ toString backlog.pending ++ " \x7d"

end Backlog

end ScriptSignal
