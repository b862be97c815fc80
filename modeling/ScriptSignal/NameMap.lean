/-!
# Entries under names

A small finite map from names to entries. A name keeps the place where it first
came, so that a map written twice with the same entry is the same map. The view
of a map is `find?`, and each operation has one lemma for the name it touches
and one for all others.
-/

namespace ScriptSignal

set_option autoImplicit false

universe u

structure NameMap (α : Type u) where
  entries : List (String × α)
deriving Repr, DecidableEq

namespace NameMap

variable {α : Type u}

def empty : NameMap α := ⟨[]⟩

instance : Inhabited (NameMap α) := ⟨empty⟩

def findIn (name : String) : List (String × α) → Option α
  | [] => none
  | (other, entry) :: rest => if other = name then some entry else findIn name rest

def insertIn (name : String) (entry : α) : List (String × α) → List (String × α)
  | [] => [(name, entry)]
  | (other, held) :: rest =>
      if other = name then (name, entry) :: rest else (other, held) :: insertIn name entry rest

def find? (map : NameMap α) (name : String) : Option α := findIn name map.entries

def insert (map : NameMap α) (name : String) (entry : α) : NameMap α :=
  ⟨insertIn name entry map.entries⟩

def erase (map : NameMap α) (name : String) : NameMap α :=
  ⟨map.entries.filter fun pair => pair.1 ≠ name⟩

/-- The map of a list of named entries. Of two entries with one name the later counts. -/
def ofList (pairs : List (String × α)) : NameMap α :=
  pairs.foldl (fun map pair => map.insert pair.1 pair.2) empty

def values (map : NameMap α) : List α := map.entries.map Prod.snd

@[simp] theorem find_empty (name : String) : (empty : NameMap α).find? name = none := rfl

theorem find_in_insert_same (name : String) (entry : α) (pairs : List (String × α)) :
    findIn name (insertIn name entry pairs) = some entry := by
  induction pairs with
  | nil => simp [insertIn, findIn]
  | cons pair rest induction =>
      by_cases same : pair.1 = name
      · simp [insertIn, findIn, same]
      · simp [insertIn, findIn, same, induction]

theorem find_in_insert_other {name other : String} (different : other ≠ name) (entry : α)
    (pairs : List (String × α)) :
    findIn other (insertIn name entry pairs) = findIn other pairs := by
  induction pairs with
  | nil => simp [insertIn, findIn, different.symm]
  | cons pair rest induction =>
      by_cases same : pair.1 = name
      · simp [insertIn, findIn, same, different.symm]
      · simp [insertIn, findIn, same, induction]

theorem find_in_filter_other {name other : String} (different : other ≠ name)
    (pairs : List (String × α)) :
    findIn other (pairs.filter fun pair => pair.1 ≠ name) = findIn other pairs := by
  induction pairs with
  | nil => rfl
  | cons pair rest induction =>
      by_cases same : pair.1 = name
      · simpa [findIn, same, different.symm] using induction
      · simpa [findIn, same] using congrArg (fun found => if pair.1 = other then _ else found)
          induction

theorem find_in_filter_same (name : String) (pairs : List (String × α)) :
    findIn name (pairs.filter fun pair => pair.1 ≠ name) = none := by
  induction pairs with
  | nil => rfl
  | cons pair rest induction =>
      by_cases same : pair.1 = name
      · simpa [findIn, same] using induction
      · simpa [findIn, same] using induction

@[simp] theorem find_insert_same (map : NameMap α) (name : String) (entry : α) :
    (map.insert name entry).find? name = some entry :=
  find_in_insert_same name entry map.entries

theorem find_insert_other (map : NameMap α) {name other : String} (different : other ≠ name)
    (entry : α) : (map.insert name entry).find? other = map.find? other :=
  find_in_insert_other different entry map.entries

@[simp] theorem find_erase_same (map : NameMap α) (name : String) :
    (map.erase name).find? name = none :=
  find_in_filter_same name map.entries

theorem find_erase_other (map : NameMap α) {name other : String} (different : other ≠ name) :
    (map.erase name).find? other = map.find? other :=
  find_in_filter_other different map.entries

end NameMap

end ScriptSignal
