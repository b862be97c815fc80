import Mathlib.Algebra.Ring.Nat
import Mathlib.Data.List.Nodup
import ScriptSignal.NameMap

/-!
# Counting what is stored

References stand in lists, in the places of an array and under names. What is counted
is the occurrences of one item in all that the entries of such a store yield. One law
for each way to change a store says how the count moves.
-/

namespace ScriptSignal

set_option autoImplicit false

universe u v

variable {α : Type u} {β : Type v} [BEq β]

theorem count_flat_map_set {items : List α} {place : Nat} {old : α}
    (found : items[place]? = some old) (new : α) (yield : α → List β) (item : β) :
    ((items.set place new).flatMap yield).count item + (yield old).count item =
      (items.flatMap yield).count item + (yield new).count item := by
  induction items generalizing place with
  | nil => simp at found
  | cons head rest induction =>
      cases place with
      | zero =>
          have same : head = old := by simpa using found
          subst same
          simp only [List.set_cons_zero, List.flatMap_cons, List.count_append]
          omega
      | succ place =>
          have step := @induction place (by simpa using found)
          simp only [List.set_cons_succ, List.flatMap_cons, List.count_append]
          omega

theorem count_marks {γ : Type v} (items : List γ) :
    (items.map fun _ => ()).count () = items.length := by
  rw [List.map_const', List.count_replicate_self]

theorem length_flat_map {γ : Type v} (items : List α) (yield : α → List γ) :
    (items.flatMap yield).length =
      (items.flatMap fun item => (yield item).map fun _ => ()).count () := by
  rw [← List.map_flatMap, count_marks]

theorem length_flat_map_set {γ : Type v} {items : List α} {place : Nat} {old : α}
    (found : items[place]? = some old) (new : α) (yield : α → List γ) :
    ((items.set place new).flatMap yield).length + (yield old).length =
      (items.flatMap yield).length + (yield new).length := by
  have moved := count_flat_map_set found new (fun item => (yield item).map fun _ => ()) ()
  rw [length_flat_map, length_flat_map, ← count_marks (yield old), ← count_marks (yield new)]
  exact moved

namespace NameMap

def Distinct (map : NameMap α) : Prop := (map.entries.map Prod.fst).Nodup

theorem distinct_empty : (empty : NameMap α).Distinct := List.nodup_nil

theorem mem_names_insert_in {name other : String} {entry : α} {pairs : List (String × α)}
    (member : other ∈ (insertIn name entry pairs).map Prod.fst) :
    other = name ∨ other ∈ pairs.map Prod.fst := by
  induction pairs with
  | nil => simpa [insertIn] using member
  | cons pair rest induction =>
      by_cases same : pair.1 = name
      · simp only [insertIn, same, if_true, List.map_cons, List.mem_cons] at member
        simp only [List.map_cons, List.mem_cons, same]
        tauto
      · simp only [insertIn, same, if_false, List.map_cons, List.mem_cons] at member
        rcases member with head | later
        · simp [head]
        · rcases induction later with new | old
          · exact .inl new
          · exact .inr (by simp [old])

theorem distinct_insert {map : NameMap α} (distinct : map.Distinct) (name : String) (entry : α) :
    (map.insert name entry).Distinct := by
  obtain ⟨pairs⟩ := map
  unfold Distinct at distinct ⊢
  unfold insert
  induction pairs with
  | nil => simp [insertIn]
  | cons pair rest induction =>
      simp only [List.map_cons, List.nodup_cons] at distinct
      by_cases same : pair.1 = name
      · simpa [insertIn, same] using (same ▸ distinct : name ∉ rest.map Prod.fst ∧ _)
      · simp only [insertIn, same, if_false, List.map_cons, List.nodup_cons]
        refine ⟨?_, induction distinct.2⟩
        intro member
        rcases mem_names_insert_in member with new | old
        · exact same new
        · exact distinct.1 old

theorem distinct_erase {map : NameMap α} (distinct : map.Distinct) (name : String) :
    (map.erase name).Distinct :=
  (List.filter_sublist.map Prod.fst).nodup distinct

theorem count_insert (map : NameMap α) (name : String) (entry : α) (yield : α → List β)
    (item : β) :
    ((map.insert name entry).values.flatMap yield).count item
        + ((map.find? name).toList.flatMap yield).count item =
      (map.values.flatMap yield).count item + (yield entry).count item := by
  obtain ⟨pairs⟩ := map
  unfold insert find? values
  induction pairs with
  | nil => simp [insertIn, findIn]
  | cons pair rest induction =>
      by_cases same : pair.1 = name
      · simp only [insertIn, findIn, same, if_true, List.map_cons, List.flatMap_cons,
          List.count_append, Option.toList_some, List.flatMap_nil, List.append_nil]
        omega
      · simp only [insertIn, findIn, same, if_false, List.map_cons, List.flatMap_cons,
          List.count_append] at induction ⊢
        omega

theorem find_in_eq_none {name : String} {pairs : List (String × α)}
    (missing : name ∉ pairs.map Prod.fst) : findIn name pairs = none := by
  induction pairs with
  | nil => rfl
  | cons pair rest induction =>
      simp only [List.map_cons, List.mem_cons, not_or] at missing
      simp [findIn, Ne.symm missing.1, induction missing.2]

theorem count_erase {map : NameMap α} (distinct : map.Distinct) (name : String)
    (yield : α → List β) (item : β) :
    ((map.erase name).values.flatMap yield).count item
        + ((map.find? name).toList.flatMap yield).count item =
      (map.values.flatMap yield).count item := by
  obtain ⟨pairs⟩ := map
  unfold Distinct at distinct
  unfold erase find? values
  induction pairs with
  | nil => simp [findIn]
  | cons pair rest induction =>
      simp only [List.map_cons, List.nodup_cons] at distinct
      have step := induction distinct.2
      by_cases same : pair.1 = name
      · have missing := find_in_eq_none (same ▸ distinct.1 : name ∉ rest.map Prod.fst)
        simp only [missing, Option.toList_none, List.flatMap_nil, List.count_nil] at step
        simp [findIn, same, ← step, Nat.add_comm]
      · simp only [same, findIn, if_false, ne_eq, not_false_eq_true, decide_true,
          List.filter_cons_of_pos, List.map_cons, List.flatMap_cons, List.count_append] at step ⊢
        omega

end NameMap

end ScriptSignal
