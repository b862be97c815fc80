import Mathlib.Data.List.Nodup
import ScriptSignal.Proofs.Counting
import ScriptSignal.Slab

/-!
# Slabs as finite maps

The view of a slab is `get?`. As long as its slots can be numbered with 32 bits, an
insertion reaches its entry by a key that reached nothing before, and no operation on
one key touches what another key reaches. Generations take no part in this: they only
keep apart keys of one slot that are used at different times.
-/

namespace ScriptSignal

set_option autoImplicit false

universe u v

theorem Key.of_bits_to_bits (key : Key) : Key.ofBits key.toBits = key := by
  obtain ⟨index, generation⟩ := key
  have low : ((generation.toUInt64 <<< 32) ||| index.toUInt64).toUInt32 = index := by
    apply UInt32.toBitVec_inj.1
    ext place bound
    simp
  have high : (((generation.toUInt64 <<< 32) ||| index.toUInt64) >>> 32).toUInt32 = generation := by
    apply UInt32.toBitVec_inj.1
    ext place bound
    have shifted : 32 + place < 64 := by omega
    have inside : place < 64 := by omega
    simp [shifted, inside, BitVec.getLsbD_eq_getElem bound]
  simp [Key.ofBits, Key.toBits, low, high]

namespace Slab

variable {α : Type u}

/-- The free list names empty slots, each once, and the count agrees with the slots. -/
structure Sound (slab : Slab α) : Prop where
  distinct : slab.free.Nodup
  vacant : ∀ index ∈ slab.free, ∃ slot, slab.slot? index = some slot ∧ slot.entry = none
  counted : slab.count = slab.entries.length

theorem sound_empty : (empty : Slab α).Sound where
  distinct := List.nodup_nil
  vacant := by
    intro index member
    simp [empty] at member
  counted := rfl

theorem get_eq_some_iff {slab : Slab α} {key : Key} {entry : α} :
    slab.get? key = some entry ↔ slab.slot? key.index = some ⟨key.generation, some entry⟩ := by
  unfold get?
  cases slab.slot? key.index with
  | none => simp
  | some slot =>
      obtain ⟨generation, held⟩ := slot
      by_cases same : generation = key.generation
      · simp [same]
      · simp [same]

theorem contains_iff {slab : Slab α} {key : Key} :
    slab.contains key = true ↔ ∃ entry, slab.get? key = some entry := by
  simp [contains, Option.isSome_iff_exists]

theorem slot_of_contains {slab : Slab α} {key : Key} (present : slab.contains key = true) :
    ∃ entry, slab.slot? key.index = some ⟨key.generation, some entry⟩ := by
  obtain ⟨entry, reached⟩ := contains_iff.1 present
  exact ⟨entry, get_eq_some_iff.1 reached⟩

theorem slot_write {slab changed : Slab α} {index : UInt32} {old new : Slot α}
    (found : slab.slot? index = some old)
    (written : changed.slots = slab.slots.setIfInBounds index.toNat new) (other : UInt32) :
    changed.slot? other = if other = index then some new else slab.slot? other := by
  unfold slot? at found ⊢
  rw [written]
  by_cases same : other = index
  · subst same
    have bound := (Array.getElem?_eq_some_iff.1 found).1
    simp [bound]
  · have apart : index.toNat ≠ other.toNat := by
      intro equal
      exact same (UInt32.toNat_inj.1 equal.symm)
    simp [same, apart]

theorem get_write {slab changed : Slab α} {index : UInt32} {old new : Slot α}
    (found : slab.slot? index = some old)
    (written : changed.slots = slab.slots.setIfInBounds index.toNat new) (key : Key) :
    changed.get? key =
      if key.index = index then if new.generation = key.generation then new.entry else none
      else slab.get? key := by
  unfold get?
  rw [slot_write found written]
  by_cases same : key.index = index
  · simp [same]
  · simp [same]

/-- A key that names a slot in another generation reaches nothing. -/
theorem get_of_other_generation {slab : Slab α} {key other : Key} {entry : Option α}
    (found : slab.slot? key.index = some ⟨key.generation, entry⟩) (place : other.index = key.index)
    (apart : other ≠ key) : slab.get? other = none := by
  have generations : ¬key.generation = other.generation := by
    intro equal
    apply apart
    cases other
    cases key
    simp_all
  unfold get?
  rw [place, found]
  simp [generations]

theorem get_set {slab : Slab α} {key : Key} (present : slab.contains key = true) (entry : α)
    (other : Key) :
    (slab.set key entry).get? other = if other = key then some entry else slab.get? other := by
  obtain ⟨old, found⟩ := slot_of_contains present
  have written : (slab.set key entry).slots =
      slab.slots.setIfInBounds key.index.toNat ⟨key.generation, some entry⟩ := by
    simp [set, present]
  rw [get_write found written]
  by_cases same : other = key
  · simp [same]
  · by_cases place : other.index = key.index
    · have generations : ¬key.generation = other.generation := by
        intro equal
        apply same
        cases other
        cases key
        simp_all
      simp [same, place, generations, get_of_other_generation found place same]
    · simp [same, place]

theorem set_of_not_contains {slab : Slab α} {key : Key} (missing : ¬slab.contains key = true)
    (entry : α) : slab.set key entry = slab := by
  simp [set, missing]

theorem capacity_set (slab : Slab α) (key : Key) (entry : α) :
    (slab.set key entry).capacity = slab.capacity := by
  unfold set capacity
  split <;> simp

theorem get_erase (slab : Slab α) (key other : Key) :
    (slab.erase key).get? other = if other = key then none else slab.get? other := by
  by_cases present : slab.contains key = true
  · obtain ⟨old, found⟩ := slot_of_contains present
    have written : (slab.erase key).slots =
        slab.slots.setIfInBounds key.index.toNat ⟨key.generation + 1, none⟩ := by
      simp [erase, present]
    rw [get_write found written]
    by_cases same : other = key
    · simp [same]
    · by_cases place : other.index = key.index
      · simp [same, place, get_of_other_generation found place same]
      · simp [same, place]
  · have unchanged : slab.erase key = slab := by simp [erase, present]
    rw [unchanged]
    by_cases same : other = key
    · subst same
      simpa [contains] using present
    · simp [same]

theorem capacity_erase (slab : Slab α) (key : Key) :
    (slab.erase key).capacity = slab.capacity := by
  unfold erase capacity
  split <;> simp

theorem slot_insert {slab : Slab α} (sound : slab.Sound) (entry : α)
    (room : (slab.insert entry).capacity ≤ 2 ^ 32) (index : UInt32) :
    (slab.insert entry).slot? index =
      if index = slab.nextKey.index then some ⟨slab.nextKey.generation, some entry⟩
      else slab.slot? index := by
  cases free : slab.free with
  | nil =>
      have size : slab.slots.size < 2 ^ 32 := by
        simp only [capacity, insert, free, Array.size_push] at room
        omega
      have number : (UInt32.ofNat slab.slots.size).toNat = slab.slots.size :=
        UInt32.toNat_ofNat_of_lt size
      have same : slab.slots.size = index.toNat ↔ index = UInt32.ofNat slab.slots.size := by
        rw [← UInt32.toNat_inj, number]
        exact eq_comm
      simp [insert, nextKey, slot?, free, Array.getElem?_push, eq_comm, same]
  | cons head rest =>
      obtain ⟨slot, found, -⟩ := sound.vacant head (by simp [free])
      have written : (slab.insert entry).slots =
          slab.slots.setIfInBounds head.toNat
            ⟨(slab.slot? head).elim 0 Slot.generation, some entry⟩ := by
        simp [insert, free]
      rw [slot_write found written]
      simp [nextKey, free]

theorem vacant_next_key {slab : Slab α} (sound : slab.Sound) {entry : α}
    (room : (slab.insert entry).capacity ≤ 2 ^ 32) (slot : Slot α)
    (found : slab.slot? slab.nextKey.index = some slot) : slot.entry = none := by
  cases free : slab.free with
  | nil =>
      have size : slab.slots.size < 2 ^ 32 := by
        simp only [capacity, insert, free, Array.size_push] at room
        omega
      have number : (UInt32.ofNat slab.slots.size).toNat = slab.slots.size :=
        UInt32.toNat_ofNat_of_lt size
      simp only [nextKey, free, slot?, number] at found
      have bound := (Array.getElem?_eq_some_iff.1 found).1
      exact absurd bound (Nat.lt_irrefl _)
  | cons head rest =>
      obtain ⟨held, reached, vacant⟩ := sound.vacant head (by simp [free])
      simp only [nextKey, free] at found
      rw [reached] at found
      cases found
      exact vacant

theorem get_of_vacant {slab : Slab α} {key : Key}
    (vacant : ∀ slot, slab.slot? key.index = some slot → slot.entry = none) :
    slab.get? key = none := by
  unfold get?
  cases found : slab.slot? key.index with
  | none => rfl
  | some slot => simp [vacant slot found]

theorem get_next_key {slab : Slab α} (sound : slab.Sound) {entry : α}
    (room : (slab.insert entry).capacity ≤ 2 ^ 32) : slab.get? slab.nextKey = none :=
  get_of_vacant (vacant_next_key sound room)

theorem get_insert {slab : Slab α} (sound : slab.Sound) (entry : α)
    (room : (slab.insert entry).capacity ≤ 2 ^ 32) (key : Key) :
    (slab.insert entry).get? key = if key = slab.nextKey then some entry else slab.get? key := by
  by_cases same : key = slab.nextKey
  · subst same
    unfold get?
    rw [slot_insert sound entry room]
    simp
  · rw [if_neg same]
    by_cases place : key.index = slab.nextKey.index
    · have found := slot_insert sound entry room slab.nextKey.index
      rw [if_pos rfl] at found
      rw [get_of_other_generation found place same]
      exact (get_of_vacant (by
        intro slot held
        exact vacant_next_key sound room slot (place ▸ held))).symm
    · unfold get?
      rw [slot_insert sound entry room, if_neg place]

theorem capacity_le_insert (slab : Slab α) (entry : α) :
    slab.capacity ≤ (slab.insert entry).capacity := by
  unfold insert capacity
  split <;> simp

variable {β : Type v} [BEq β]

theorem entries_eq_flat_map (slab : Slab α) :
    slab.entries = slab.slots.toList.flatMap fun slot => slot.entry.toList := by
  unfold entries
  rw [List.filterMap_eq_flatMap_toList]

theorem count_write {slab changed : Slab α} {index : UInt32} {old new : Slot α}
    (found : slab.slot? index = some old)
    (written : changed.slots = slab.slots.setIfInBounds index.toNat new) (yield : α → List β)
    (item : β) :
    (changed.entries.flatMap yield).count item + (old.entry.toList.flatMap yield).count item =
      (slab.entries.flatMap yield).count item + (new.entry.toList.flatMap yield).count item := by
  rw [entries_eq_flat_map, entries_eq_flat_map, written, List.flatMap_assoc, List.flatMap_assoc,
    Array.toList_setIfInBounds]
  exact count_flat_map_set (by simpa [slot?] using found) new
    (fun slot => slot.entry.toList.flatMap yield) item

theorem count_set {slab : Slab α} {key : Key} {old : α} (reached : slab.get? key = some old)
    (entry : α) (yield : α → List β) (item : β) :
    ((slab.set key entry).entries.flatMap yield).count item + (yield old).count item =
      (slab.entries.flatMap yield).count item + (yield entry).count item := by
  have present : slab.contains key = true := contains_iff.2 ⟨old, reached⟩
  have written : (slab.set key entry).slots =
      slab.slots.setIfInBounds key.index.toNat ⟨key.generation, some entry⟩ := by
    simp [set, present]
  simpa using count_write (get_eq_some_iff.1 reached) written yield item

theorem count_erase {slab : Slab α} {key : Key} {old : α} (reached : slab.get? key = some old)
    (yield : α → List β) (item : β) :
    ((slab.erase key).entries.flatMap yield).count item + (yield old).count item =
      (slab.entries.flatMap yield).count item := by
  have present : slab.contains key = true := contains_iff.2 ⟨old, reached⟩
  have written : (slab.erase key).slots =
      slab.slots.setIfInBounds key.index.toNat ⟨key.generation + 1, none⟩ := by
    simp [erase, present]
  simpa using count_write (get_eq_some_iff.1 reached) written yield item

theorem count_insert {slab : Slab α} (sound : slab.Sound) (entry : α) (yield : α → List β)
    (item : β) :
    ((slab.insert entry).entries.flatMap yield).count item =
      (slab.entries.flatMap yield).count item + (yield entry).count item := by
  cases free : slab.free with
  | nil =>
      rw [entries_eq_flat_map, entries_eq_flat_map]
      simp [insert, free]
  | cons head rest =>
      obtain ⟨slot, found, vacant⟩ := sound.vacant head (by simp [free])
      have written : (slab.insert entry).slots =
          slab.slots.setIfInBounds head.toNat
            ⟨(slab.slot? head).elim 0 Slot.generation, some entry⟩ := by
        simp [insert, free]
      simpa [vacant] using count_write found written yield item

theorem length_erase {γ : Type v} {slab : Slab α} {key : Key} {old : α}
    (reached : slab.get? key = some old) (yield : α → List γ) :
    ((slab.erase key).entries.flatMap yield).length + (yield old).length =
      (slab.entries.flatMap yield).length := by
  have moved := count_erase reached (fun entry => (yield entry).map fun _ => ()) ()
  rw [length_flat_map, length_flat_map, ← count_marks (yield old)]
  exact moved

theorem length_insert {γ : Type v} {slab : Slab α} (sound : slab.Sound) (entry : α)
    (yield : α → List γ) :
    ((slab.insert entry).entries.flatMap yield).length =
      (slab.entries.flatMap yield).length + (yield entry).length := by
  have moved := count_insert sound entry (fun entry => (yield entry).map fun _ => ()) ()
  rw [length_flat_map, length_flat_map, ← count_marks (yield entry)]
  exact moved

theorem length_set {γ : Type v} {slab : Slab α} {key : Key} {old : α}
    (reached : slab.get? key = some old) (entry : α) (yield : α → List γ) :
    ((slab.set key entry).entries.flatMap yield).length + (yield old).length =
      (slab.entries.flatMap yield).length + (yield entry).length := by
  have moved := count_set reached entry (fun entry => (yield entry).map fun _ => ()) ()
  rw [length_flat_map, length_flat_map, ← count_marks (yield old), ← count_marks (yield entry)]
  exact moved

theorem sound_insert {slab : Slab α} (sound : slab.Sound) (entry : α) :
    (slab.insert entry).Sound := by
  have counted : (slab.insert entry).count = (slab.insert entry).entries.length := by
    have more := length_insert sound entry fun entry => [entry]
    simp only [List.flatMap_singleton', List.length_singleton, ← sound.counted] at more
    unfold insert at more ⊢
    split <;> simp_all
  cases free : slab.free with
  | nil =>
      refine ⟨?_, ?_, counted⟩
      · simp [insert, free]
      · intro index member
        simp [insert, free] at member
  | cons head rest =>
      have distinct := sound.distinct
      rw [free, List.nodup_cons] at distinct
      obtain ⟨slot, found, -⟩ := sound.vacant head (by simp [free])
      have written : (slab.insert entry).slots =
          slab.slots.setIfInBounds head.toNat
            ⟨(slab.slot? head).elim 0 Slot.generation, some entry⟩ := by
        simp [insert, free]
      refine ⟨by simpa [insert, free] using distinct.2, ?_, counted⟩
      intro index member
      have later : index ∈ rest := by simpa [insert, free] using member
      have apart : index ≠ head := by
        rintro rfl
        exact distinct.1 later
      rw [slot_write found written, if_neg apart]
      exact sound.vacant index (by simp [free, later])

theorem sound_set {slab : Slab α} (sound : slab.Sound) (key : Key) (entry : α) :
    (slab.set key entry).Sound := by
  by_cases present : slab.contains key = true
  · obtain ⟨old, reached⟩ := contains_iff.1 present
    have found := get_eq_some_iff.1 reached
    have written : (slab.set key entry).slots =
        slab.slots.setIfInBounds key.index.toNat ⟨key.generation, some entry⟩ := by
      simp [set, present]
    have freeSame : (slab.set key entry).free = slab.free := by simp [set, present]
    refine ⟨by rw [freeSame]; exact sound.distinct, ?_, ?_⟩
    · intro index member
      rw [freeSame] at member
      obtain ⟨slot, held, vacant⟩ := sound.vacant index member
      have apart : index ≠ key.index := by
        rintro rfl
        rw [found] at held
        cases held
        cases vacant
      rw [slot_write found written, if_neg apart]
      exact ⟨slot, held, vacant⟩
    · have same := length_set reached entry fun entry => [entry]
      simp only [List.flatMap_singleton', List.length_singleton, ← sound.counted] at same
      simpa [set, present] using (Nat.add_right_cancel same).symm
  · rw [set_of_not_contains present]
    exact sound

theorem sound_erase {slab : Slab α} (sound : slab.Sound) (key : Key) :
    (slab.erase key).Sound := by
  by_cases present : slab.contains key = true
  · obtain ⟨old, reached⟩ := contains_iff.1 present
    have found := get_eq_some_iff.1 reached
    have written : (slab.erase key).slots =
        slab.slots.setIfInBounds key.index.toNat ⟨key.generation + 1, none⟩ := by
      simp [erase, present]
    have freed : (slab.erase key).free = key.index :: slab.free := by simp [erase, present]
    have fresh : key.index ∉ slab.free := by
      intro member
      obtain ⟨slot, held, vacant⟩ := sound.vacant key.index member
      rw [found] at held
      cases held
      cases vacant
    refine ⟨by rw [freed]; exact List.nodup_cons.2 ⟨fresh, sound.distinct⟩, ?_, ?_⟩
    · intro index member
      rw [slot_write found written]
      by_cases same : index = key.index
      · exact ⟨⟨key.generation + 1, none⟩, by simp [same], rfl⟩
      · rw [if_neg same]
        rw [freed, List.mem_cons] at member
        exact sound.vacant index (member.resolve_left same)
    · have fewer := length_erase reached fun entry => [entry]
      simp only [List.flatMap_singleton', List.length_singleton, ← sound.counted] at fewer
      have count : (slab.erase key).count = slab.count - 1 := by simp [erase, present]
      omega
  · have unchanged : slab.erase key = slab := by simp [erase, present]
    rw [unchanged]
    exact sound

def keys (slab : Slab α) : List Key :=
  slab.slots.toList.zipIdx.filterMap fun place =>
    place.1.entry.map fun _ => ⟨UInt32.ofNat place.2, place.1.generation⟩

theorem length_keys (slab : Slab α) : slab.keys.length = slab.entries.length := by
  unfold keys entries
  generalize 0 = start
  induction slab.slots.toList generalizing start with
  | nil => rfl
  | cons slot rest induction =>
      cases held : slot.entry with
      | none => simpa [held] using induction (start + 1)
      | some entry => simpa [held] using induction (start + 1)

theorem mem_keys {slab : Slab α} (room : slab.capacity ≤ 2 ^ 32) {key : Key} :
    key ∈ slab.keys ↔ slab.contains key = true := by
  unfold capacity at room
  simp only [keys, List.mem_filterMap, Prod.exists, List.mk_mem_zipIdx_iff_getElem?,
    Option.map_eq_some_iff, contains_iff, get_eq_some_iff, slot?, Array.getElem?_toList]
  constructor
  · rintro ⟨slot, index, found, entry, held, rfl⟩
    have bound := (Array.getElem?_eq_some_iff.1 found).1
    have number : (UInt32.ofNat index).toNat = index :=
      UInt32.toNat_ofNat_of_lt (Nat.lt_of_lt_of_le bound room)
    exact ⟨entry, by rw [number, found, ← held]⟩
  · rintro ⟨entry, found⟩
    exact ⟨_, key.index.toNat, found, entry, rfl, by simp⟩

theorem ascending_keys {slab : Slab α} (room : slab.capacity ≤ 2 ^ 32) :
    slab.keys.Pairwise fun first second => first.index < second.index := by
  unfold capacity at room
  have ascending : slab.slots.toList.zipIdx.Pairwise fun first second => first.2 < second.2 := by
    rw [← List.pairwise_map (f := Prod.snd) (R := (· < ·)), List.zipIdx_map_snd]
    exact List.pairwise_lt_range'
  unfold keys
  rw [List.pairwise_filterMap]
  refine ascending.imp_of_mem ?_
  intro first second _ inside less key held other heldOther
  simp only [Option.map_eq_some_iff] at held heldOther
  obtain ⟨-, -, rfl⟩ := held
  obtain ⟨-, -, rfl⟩ := heldOther
  have bound : second.2 < slab.slots.size := by
    have found := List.mem_zipIdx_iff_getElem?.1 inside
    simpa using (List.getElem?_eq_some_iff.1 found).1
  have numberSecond : (UInt32.ofNat second.2).toNat = second.2 :=
    UInt32.toNat_ofNat_of_lt (Nat.lt_of_lt_of_le bound room)
  have numberFirst : (UInt32.ofNat first.2).toNat = first.2 :=
    UInt32.toNat_ofNat_of_lt (Nat.lt_trans less (Nat.lt_of_lt_of_le bound room))
  rw [UInt32.lt_iff_toNat_lt]
  simp only [numberFirst, numberSecond]
  exact less

theorem nodup_keys {slab : Slab α} (room : slab.capacity ≤ 2 ^ 32) : slab.keys.Nodup := by
  refine (ascending_keys room).imp ?_
  rintro first second less rfl
  exact UInt32.lt_irrefl _ less

theorem mem_entries_of_get {slab : Slab α} {key : Key} {entry : α}
    (reached : slab.get? key = some entry) : entry ∈ slab.entries := by
  have found := get_eq_some_iff.1 reached
  unfold slot? at found
  rw [← Array.getElem?_toList] at found
  exact List.mem_filterMap.2 ⟨_, List.mem_of_getElem? found, rfl⟩

theorem exists_key_of_mem {slab : Slab α} (room : slab.capacity ≤ 2 ^ 32) {entry : α}
    (member : entry ∈ slab.entries) : ∃ key, slab.get? key = some entry := by
  unfold capacity at room
  obtain ⟨slot, listed, held⟩ := List.mem_filterMap.1 member
  obtain ⟨index, found⟩ := List.getElem?_of_mem listed
  rw [Array.getElem?_toList] at found
  have bound := (Array.getElem?_eq_some_iff.1 found).1
  have number : (UInt32.ofNat index).toNat = index :=
    UInt32.toNat_ofNat_of_lt (Nat.lt_of_lt_of_le bound room)
  refine ⟨⟨UInt32.ofNat index, slot.generation⟩, get_eq_some_iff.2 ?_⟩
  simp only [slot?, number, found, ← held]

end Slab

end ScriptSignal
