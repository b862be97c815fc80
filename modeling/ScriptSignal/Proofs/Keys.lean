import ScriptSignal.Proofs.Slab

/-!
# Keys that are never used again

A slab serves requests with any keys at all, and what it answered is kept in a log.
The log alone says what is stored under a key: what was last written there since the
key was given out, unless the key was removed or everything was drained. As long as no
slot was emptied so often that its generation began again, the slab answers every
request as its log says, and no key is given out twice. A slot is on the generation
that counts how often it was emptied, which sets each key apart from the earlier keys
of its slot.
-/

namespace ScriptSignal

set_option autoImplicit false

universe u

namespace Slab

variable {α : Type u}

theorem entry_vacated (slot : Slot α) : slot.vacated.entry = none := by
  unfold Slot.vacated
  split
  · rfl
  · assumption

theorem entries_clear (slab : Slab α) : slab.clear.entries = [] := by
  unfold entries clear
  rw [Array.toList_map, List.filterMap_map]
  exact List.filterMap_eq_nil_iff.2 fun slot _ => entry_vacated slot

theorem slot_clear (slab : Slab α) (index : UInt32) :
    slab.clear.slot? index = (slab.slot? index).map Slot.vacated := by
  simp [slot?, clear]

theorem get_clear (slab : Slab α) (key : Key) : slab.clear.get? key = none := by
  apply get_of_vacant
  intro slot found
  rw [slot_clear] at found
  obtain ⟨old, -, rfl⟩ := Option.map_eq_some_iff.1 found
  exact entry_vacated old

theorem capacity_clear (slab : Slab α) : slab.clear.capacity = slab.capacity := by
  simp [capacity, clear]

theorem occupied_eq_map_keys (slab : Slab α) : slab.occupied = slab.keys.map Key.index := by
  simp [occupied, keys, List.map_filterMap, Function.comp_def]

theorem mem_occupied {slab : Slab α} (room : slab.capacity ≤ 2 ^ 32) {index : UInt32}
    (filled : index ∈ slab.occupied) :
    ∃ generation entry, slab.slot? index = some ⟨generation, some entry⟩ := by
  rw [occupied_eq_map_keys] at filled
  obtain ⟨key, listed, rfl⟩ := List.mem_map.1 filled
  obtain ⟨entry, found⟩ := slot_of_contains ((mem_keys room).1 listed)
  exact ⟨key.generation, entry, found⟩

theorem nodup_occupied {slab : Slab α} (room : slab.capacity ≤ 2 ^ 32) :
    slab.occupied.Nodup := by
  rw [occupied_eq_map_keys, List.Nodup, List.pairwise_map]
  refine (ascending_keys room).imp ?_
  intro first second less same
  exact UInt32.lt_irrefl _ (same ▸ less)

theorem sound_clear {slab : Slab α} (sound : slab.Sound) (room : slab.capacity ≤ 2 ^ 32) :
    slab.clear.Sound where
  distinct := by
    refine List.nodup_append.2 ⟨List.nodup_reverse.2 (nodup_occupied room), sound.distinct, ?_⟩
    rintro index filled other member rfl
    obtain ⟨generation, entry, found⟩ := mem_occupied room (List.mem_reverse.1 filled)
    obtain ⟨slot, held, vacant⟩ := sound.vacant index member
    rw [found] at held
    cases held
    cases vacant
  vacant := by
    intro index member
    have made : ∃ slot, slab.slot? index = some slot := by
      rcases List.mem_append.1 member with filled | free
      · obtain ⟨generation, entry, found⟩ := mem_occupied room (List.mem_reverse.1 filled)
        exact ⟨_, found⟩
      · obtain ⟨slot, found, -⟩ := sound.vacant index free
        exact ⟨slot, found⟩
    obtain ⟨slot, found⟩ := made
    exact ⟨slot.vacated, by rw [slot_clear, found]; rfl, entry_vacated slot⟩
  counted := by
    simp [clear, entries, List.filterMap_map, entry_vacated]

/-- What is drained is what the keys reach, in the order of the slots. -/
theorem entries_eq_filter_map_keys {slab : Slab α} (room : slab.capacity ≤ 2 ^ 32) :
    slab.entries = slab.keys.filterMap slab.get? := by
  have reach : ∀ place ∈ slab.slots.toList.zipIdx,
      ((place.1.entry.map fun _ => (⟨UInt32.ofNat place.2, place.1.generation⟩ : Key)).bind
        slab.get?) = place.1.entry := by
    intro place listed
    have found := List.mem_zipIdx_iff_getElem?.1 listed
    rw [Array.getElem?_toList] at found
    have bound := (Array.getElem?_eq_some_iff.1 found).1
    have number : (UInt32.ofNat place.2).toNat = place.2 :=
      UInt32.toNat_ofNat_of_lt (Nat.lt_of_lt_of_le bound room)
    cases held : place.1.entry with
    | none => rfl
    | some entry =>
        simp only [Option.map_some, Option.bind_some]
        apply get_eq_some_iff.2
        simp only [slot?, number, found, ← held]
  unfold entries keys
  rw [List.filterMap_filterMap, List.filterMap_congr reach]
  conv_lhs => rw [← List.zipIdx_map_fst 0 slab.slots.toList, List.filterMap_map]
  rfl

inductive Request (α : Type u)
  | insert (entry : α)
  | get (key : Key)
  | overwrite (key : Key) (entry : α)
  | remove (key : Key)
  | contains (key : Key)
  | drain
  | length
  | isEmpty

inductive Answer (α : Type u)
  | key (key : Key)
  /-- What was found under the key, before anything was done with it. -/
  | entry (found : Option α)
  | truth (value : Bool)
  | entries (all : List α)
  | number (value : Nat)

def serve (slab : Slab α) : Request α → Slab α × Answer α
  | .insert entry => (slab.insert entry, .key slab.nextKey)
  | .get key => (slab, .entry (slab.get? key))
  | .overwrite key entry => (slab.set key entry, .entry (slab.get? key))
  | .remove key => (slab.erase key, .entry (slab.get? key))
  | .contains key => (slab, .truth (slab.contains key))
  | .drain => (slab.clear, .entries slab.entries)
  | .length => (slab, .number slab.count)
  | .isEmpty => (slab, .truth slab.isEmpty)

/-- The requests that were served and their answers, the latest first. -/
abbrev Log (α : Type u) := List (Request α × Answer α)

namespace Log

/-- The keys that were given out, the latest first. -/
def issued (log : Log α) : List Key :=
  log.filterMap fun
    | (.insert _, .key key) => some key
    | _ => none

/-- What a request leaves under a key that reached `before`. -/
def rewritten (key : Key) (before : Option α) : Request α × Answer α → Option α
  | (.insert entry, .key fresh) => if fresh = key then some entry else before
  | (.overwrite place entry, _) => if place = key then before.map fun _ => entry else before
  | (.remove place, _) => if place = key then none else before
  | (.drain, _) => none
  | _ => before

/-- What is stored under a key that was given out and neither removed nor drained. -/
def stored (log : Log α) (key : Key) : Option α :=
  log.foldr (fun event before => rewritten key before event) none

theorem stored_cons (event : Request α × Answer α) (earlier : Log α) (key : Key) :
    Log.stored (event :: earlier) key = rewritten key (earlier.stored key) event := rfl

def live (log : Log α) : List Key := log.issued.filter fun key => (log.stored key).isSome

/-- How often a slot loses its entry by one request. -/
def losses (log : Log α) (index : UInt32) : Request α × Answer α → Nat
  | (.remove key, .entry (some _)) => if key.index = index then 1 else 0
  | (.drain, _) => if index ∈ log.live.map Key.index then 1 else 0
  | _ => 0

def emptied (index : UInt32) : Log α → Nat
  | [] => 0
  | event :: earlier => emptied index earlier + losses earlier index event

end Log

/-- How a slab that did what the log tells answers the next request. -/
def Answered (log : Log α) (request : Request α) (answer : Answer α) : Prop :=
  match request with
  | .insert _ => ∃ key, answer = .key key ∧ key ∉ log.issued
  | .get key => answer = .entry (log.stored key)
  | .overwrite key _ => answer = .entry (log.stored key)
  | .remove key => answer = .entry (log.stored key)
  | .contains key => answer = .truth (log.stored key).isSome
  | .drain => ∃ keys : List Key, keys.Perm log.live ∧
      (keys.Pairwise fun first second => first.index < second.index) ∧
      answer = .entries (keys.filterMap log.stored)
  | .length => answer = .number log.live.length
  | .isEmpty => answer = .truth log.live.isEmpty

inductive Logged : Log α → Slab α → Prop
  | new : Logged [] .empty
  | served {log : Log α} {slab : Slab α} (request : Request α) :
      Logged log slab → Logged ((request, (slab.serve request).2) :: log) (slab.serve request).1

/-- Fewer slots than there are numbers for, none of which was emptied once for each
generation. -/
structure Modest (log : Log α) (slab : Slab α) : Prop where
  slots : slab.capacity < 2 ^ 32
  turns : ∀ index, log.emptied index < 2 ^ 32

theorem capacity_le_serve (slab : Slab α) (request : Request α) :
    slab.capacity ≤ (slab.serve request).1.capacity := by
  cases request with
  | insert entry => exact capacity_le_insert slab entry
  | overwrite key entry => exact Nat.le_of_eq (capacity_set slab key entry).symm
  | remove key => exact Nat.le_of_eq (capacity_erase slab key).symm
  | drain => exact Nat.le_of_eq (capacity_clear slab).symm
  | get key => exact Nat.le_refl _
  | contains key => exact Nat.le_refl _
  | length => exact Nat.le_refl _
  | isEmpty => exact Nat.le_refl _

theorem Modest.earlier {log : Log α} {slab : Slab α} {request : Request α} {answer : Answer α}
    (modest : Modest ((request, answer) :: log) (slab.serve request).1) : Modest log slab where
  slots := Nat.lt_of_le_of_lt (capacity_le_serve slab request) modest.slots
  turns index := Nat.lt_of_le_of_lt (Nat.le_add_right _ _) (modest.turns index)

structure Accurate (log : Log α) (slab : Slab α) : Prop where
  sound : slab.Sound
  stored : ∀ key, slab.get? key = log.stored key
  issued : ∀ key, slab.contains key = true → key ∈ log.issued
  distinct : log.issued.Nodup
  /-- A key of an empty slot is of an earlier generation. -/
  past : ∀ key ∈ log.issued, ∃ slot, slab.slot? key.index = some slot ∧
    key.generation ≤ slot.generation ∧ (slot.entry = none → key.generation ≠ slot.generation)
  turned : ∀ index,
    log.emptied index = (slab.slot? index).elim 0 fun slot => slot.generation.toNat

theorem accurate_empty : Accurate ([] : Log α) .empty where
  sound := sound_empty
  stored key := rfl
  issued key present := by
    simp [contains, get?, slot?, empty] at present
  distinct := List.nodup_nil
  past key listed := absurd listed List.not_mem_nil
  turned index := by simp [slot?, empty, Log.emptied]

variable {log : Log α} {slab : Slab α}

/-- The keys that the log says are live are those that reach something. -/
theorem Accurate.mem_live (accurate : Accurate log slab) {key : Key} :
    key ∈ log.live ↔ slab.contains key = true := by
  rw [Log.live, List.mem_filter, ← accurate.stored]
  exact ⟨fun both => both.2, fun present => ⟨accurate.issued key present, present⟩⟩

theorem Accurate.live_perm (accurate : Accurate log slab) (room : slab.capacity ≤ 2 ^ 32) :
    slab.keys.Perm log.live := by
  refine (List.perm_ext_iff_of_nodup (nodup_keys room) (accurate.distinct.filter _)).2 ?_
  intro key
  rw [mem_keys room]
  exact accurate.mem_live.symm

/-- The next key is of the generation that its slot is on, and of the first one when the
slot is still to be made. -/
theorem generation_next_key (slab : Slab α) (entry : α)
    (room : (slab.insert entry).capacity ≤ 2 ^ 32) :
    slab.nextKey.generation = (slab.slot? slab.nextKey.index).elim 0 Slot.generation := by
  cases free : slab.free with
  | nil =>
      have size : slab.slots.size < 2 ^ 32 := by
        simp only [capacity, insert, free, Array.size_push] at room
        omega
      have number : (UInt32.ofNat slab.slots.size).toNat = slab.slots.size :=
        UInt32.toNat_ofNat_of_lt size
      simp only [nextKey, free, slot?, number]
      simp
  | cons head rest => simp [nextKey, free]

theorem Accurate.fresh (accurate : Accurate log slab) {entry : α}
    (room : (slab.insert entry).capacity ≤ 2 ^ 32) : slab.nextKey ∉ log.issued := by
  intro listed
  obtain ⟨slot, found, -, apart⟩ := accurate.past _ listed
  have current := generation_next_key slab entry room
  rw [found] at current
  exact apart (vacant_next_key accurate.sound room slot found) current

theorem Accurate.answered (accurate : Accurate log slab) (request : Request α)
    (room : (slab.serve request).1.capacity ≤ 2 ^ 32) :
    Answered log request (slab.serve request).2 := by
  have before : slab.capacity ≤ 2 ^ 32 := Nat.le_trans (capacity_le_serve slab request) room
  have live := accurate.live_perm before
  have count : slab.count = log.live.length := by
    rw [accurate.sound.counted, ← length_keys, live.length_eq]
  cases request with
  | insert entry => exact ⟨slab.nextKey, rfl, accurate.fresh room⟩
  | get key => exact congrArg Answer.entry (accurate.stored key)
  | overwrite key entry => exact congrArg Answer.entry (accurate.stored key)
  | remove key => exact congrArg Answer.entry (accurate.stored key)
  | contains key =>
      exact congrArg (fun found => Answer.truth found.isSome) (accurate.stored key)
  | drain =>
      refine ⟨slab.keys, live, ascending_keys before, congrArg Answer.entries ?_⟩
      rw [entries_eq_filter_map_keys before]
      exact List.filterMap_congr fun key _ => accurate.stored key
  | length => exact congrArg Answer.number count
  | isEmpty =>
      apply congrArg Answer.truth
      cases all : log.live with
      | nil => simp [isEmpty, count, all]
      | cons first rest => simp [isEmpty, count, all]

theorem Accurate.insert (accurate : Accurate log slab) {entry : α}
    (room : (slab.insert entry).capacity ≤ 2 ^ 32) :
    Accurate ((.insert entry, .key slab.nextKey) :: log) (slab.insert entry) where
  sound := sound_insert accurate.sound entry
  stored key := by
    rw [get_insert accurate.sound entry room, accurate.stored key, Log.stored_cons]
    simp only [Log.rewritten, eq_comm]
  issued key present := by
    obtain ⟨held, reached⟩ := contains_iff.1 present
    rw [get_insert accurate.sound entry room] at reached
    by_cases same : key = slab.nextKey
    · exact same ▸ List.mem_cons_self
    · rw [if_neg same] at reached
      exact List.mem_cons_of_mem _ (accurate.issued key (contains_iff.2 ⟨held, reached⟩))
  distinct := List.nodup_cons.2 ⟨accurate.fresh room, accurate.distinct⟩
  past key listed := by
    rw [slot_insert accurate.sound entry room]
    rcases List.mem_cons.1 listed with rfl | earlier
    · exact ⟨_, if_pos rfl, UInt32.le_refl _, fun vacant => by cases vacant⟩
    · obtain ⟨slot, found, order, -⟩ := accurate.past key earlier
      by_cases same : key.index = slab.nextKey.index
      · rw [if_pos same]
        have current := generation_next_key slab entry room
        rw [← same, found] at current
        refine ⟨_, rfl, ?_, fun vacant => by cases vacant⟩
        rw [current]
        exact order
      · rw [if_neg same]
        exact accurate.past key earlier
  turned index := by
    rw [slot_insert accurate.sound entry room]
    have turned := accurate.turned index
    by_cases same : index = slab.nextKey.index
    · rw [if_pos same]
      have current := generation_next_key slab entry room
      rw [← same] at current
      cases found : slab.slot? index with
      | none =>
          rw [found] at turned current
          simpa [Log.emptied, Log.losses, current] using turned
      | some slot =>
          rw [found] at turned current
          simpa [Log.emptied, Log.losses, current] using turned
    · rw [if_neg same]
      exact turned

theorem slot_erase {key : Key} (present : slab.contains key = true) (index : UInt32) :
    (slab.erase key).slot? index =
      if index = key.index then some ⟨key.generation + 1, none⟩ else slab.slot? index := by
  obtain ⟨entry, found⟩ := slot_of_contains present
  exact slot_write found (by simp [erase, present]) index

theorem slot_set {key : Key} (present : slab.contains key = true) (entry : α) (index : UInt32) :
    (slab.set key entry).slot? index =
      if index = key.index then some ⟨key.generation, some entry⟩ else slab.slot? index := by
  obtain ⟨old, found⟩ := slot_of_contains present
  exact slot_write found (by simp [set, present]) index

theorem erase_of_not_contains {key : Key} (missing : ¬slab.contains key = true) :
    slab.erase key = slab := by
  simp [erase, missing]

theorem get_of_not_contains {key : Key} (missing : ¬slab.contains key = true) :
    slab.get? key = none := by
  simpa [contains] using missing

theorem Accurate.unchanged (accurate : Accurate log slab) {event : Request α × Answer α}
    (stored : ∀ key, Log.stored (event :: log) key = log.stored key)
    (issued : Log.issued (event :: log) = log.issued)
    (losses : ∀ index, log.losses index event = 0) : Accurate (event :: log) slab where
  sound := accurate.sound
  stored key := (accurate.stored key).trans (stored key).symm
  issued := issued ▸ accurate.issued
  distinct := issued ▸ accurate.distinct
  past := issued ▸ accurate.past
  turned index := by
    rw [Log.emptied, losses index]
    exact accurate.turned index

theorem Accurate.overwrite (accurate : Accurate log slab) (key : Key) (entry : α) :
    Accurate ((.overwrite key entry, .entry (slab.get? key)) :: log) (slab.set key entry) := by
  by_cases present : slab.contains key = true
  · obtain ⟨old, reached⟩ := contains_iff.1 present
    have found := get_eq_some_iff.1 reached
    refine ⟨sound_set accurate.sound key entry, ?_, ?_, accurate.distinct, ?_, ?_⟩
    · intro other
      rw [get_set present, Log.stored_cons, ← accurate.stored]
      simp only [Log.rewritten]
      by_cases same : other = key
      · rw [if_pos same, if_pos same.symm, same, reached]
        rfl
      · rw [if_neg same, if_neg (Ne.symm same)]
    · intro other held
      apply accurate.issued
      obtain ⟨value, kept⟩ := contains_iff.1 held
      rw [get_set present] at kept
      by_cases same : other = key
      · exact same ▸ present
      · rw [if_neg same] at kept
        exact contains_iff.2 ⟨value, kept⟩
    · intro other listed
      rw [slot_set present]
      obtain ⟨slot, held, order, apart⟩ := accurate.past other listed
      by_cases same : other.index = key.index
      · rw [same, found] at held
        cases held
        exact ⟨_, if_pos same, order, fun vacant => by cases vacant⟩
      · exact ⟨slot, by rw [if_neg same, held], order, apart⟩
    · intro index
      rw [slot_set present]
      have turned := accurate.turned index
      by_cases same : index = key.index
      · rw [same, found] at turned
        simpa [Log.emptied, Log.losses, same] using turned
      · rw [if_neg same]
        exact turned
  · rw [set_of_not_contains present]
    refine accurate.unchanged ?_ rfl fun _ => rfl
    intro other
    rw [Log.stored_cons, ← accurate.stored other]
    simp only [Log.rewritten]
    split
    · rename_i same
      rw [← same, get_of_not_contains present]
      rfl
    · rfl

/-- The generation after a slot was emptied, as long as it does not begin again. -/
theorem generation_succ {generation : UInt32} (turn : generation.toNat + 1 < 2 ^ 32) :
    (generation + 1).toNat = generation.toNat + 1 := by
  rw [UInt32.toNat_add]
  exact Nat.mod_eq_of_lt turn

theorem Accurate.remove (accurate : Accurate log slab) (key : Key)
    (turns : ∀ index, Log.emptied index ((.remove key, .entry (slab.get? key)) :: log) < 2 ^ 32) :
    Accurate ((.remove key, .entry (slab.get? key)) :: log) (slab.erase key) := by
  by_cases present : slab.contains key = true
  · obtain ⟨old, reached⟩ := contains_iff.1 present
    have found := get_eq_some_iff.1 reached
    have count : log.emptied key.index = key.generation.toNat := by
      rw [accurate.turned, found]
      rfl
    have next : (key.generation + 1).toNat = key.generation.toNat + 1 := by
      have turn := turns key.index
      rw [reached] at turn
      simp only [Log.emptied, Log.losses, if_true, count] at turn
      exact generation_succ turn
    refine ⟨sound_erase accurate.sound key, ?_, ?_, accurate.distinct, ?_, ?_⟩
    · intro other
      rw [get_erase, Log.stored_cons, accurate.stored other]
      simp only [Log.rewritten, eq_comm]
    · intro other held
      apply accurate.issued
      obtain ⟨value, kept⟩ := contains_iff.1 held
      rw [get_erase] at kept
      split at kept
      · cases kept
      · exact contains_iff.2 ⟨value, kept⟩
    · intro other listed
      rw [slot_erase present]
      obtain ⟨slot, held, order, apart⟩ := accurate.past other listed
      by_cases same : other.index = key.index
      · rw [same, found] at held
        cases held
        have less : other.generation.toNat < (key.generation + 1).toNat := by
          rw [next]
          exact Nat.lt_succ_of_le (UInt32.le_iff_toNat_le.1 order)
        refine ⟨_, if_pos same, UInt32.le_of_lt (UInt32.lt_iff_toNat_lt.2 less), fun _ equal => ?_⟩
        simp only at equal
        rw [equal] at less
        exact Nat.lt_irrefl _ less
      · exact ⟨slot, by rw [if_neg same, held], order, apart⟩
    · intro index
      rw [slot_erase present, reached]
      simp only [Log.emptied, Log.losses]
      by_cases same : index = key.index
      · subst same
        rw [if_pos rfl, if_pos rfl, count]
        exact next.symm
      · rw [if_neg same, if_neg (Ne.symm same)]
        exact accurate.turned index
  · rw [erase_of_not_contains present]
    rw [get_of_not_contains present]
    refine accurate.unchanged ?_ rfl fun _ => rfl
    intro other
    rw [Log.stored_cons, ← accurate.stored other]
    simp only [Log.rewritten]
    split
    · rename_i same
      rw [← same, get_of_not_contains present]
    · rfl

theorem Accurate.filled_iff (accurate : Accurate log slab) {index : UInt32} :
    index ∈ log.live.map Key.index ↔
      ∃ generation entry, slab.slot? index = some ⟨generation, some entry⟩ := by
  rw [List.mem_map]
  constructor
  · rintro ⟨key, listed, rfl⟩
    obtain ⟨entry, found⟩ := slot_of_contains (accurate.mem_live.1 listed)
    exact ⟨key.generation, entry, found⟩
  · rintro ⟨generation, entry, found⟩
    refine ⟨⟨index, generation⟩, accurate.mem_live.2 (contains_iff.2 ⟨entry, ?_⟩), rfl⟩
    exact get_eq_some_iff.2 found

theorem Accurate.drain (accurate : Accurate log slab) (room : slab.capacity ≤ 2 ^ 32)
    (turns : ∀ index, Log.emptied index ((.drain, .entries slab.entries) :: log) < 2 ^ 32) :
    Accurate ((.drain, .entries slab.entries) :: log) slab.clear where
  sound := sound_clear accurate.sound room
  stored key := get_clear slab key
  issued key present := by
    simp [contains, get_clear] at present
  distinct := accurate.distinct
  past key listed := by
    obtain ⟨slot, found, order, apart⟩ := accurate.past key listed
    refine ⟨slot.vacated, by rw [slot_clear, found]; rfl, ?_⟩
    obtain ⟨generation, held⟩ := slot
    cases held with
    | none => exact ⟨order, apart⟩
    | some entry =>
        have filled := accurate.filled_iff.2 ⟨generation, entry, found⟩
        have turn := turns key.index
        simp only [Log.emptied, Log.losses, if_pos filled, accurate.turned, found,
          Option.elim_some] at turn
        have next := generation_succ turn
        have less : key.generation.toNat < (generation + 1).toNat := by
          rw [next]
          exact Nat.lt_succ_of_le (UInt32.le_iff_toNat_le.1 order)
        refine ⟨UInt32.le_of_lt (UInt32.lt_iff_toNat_lt.2 less), fun _ equal => ?_⟩
        simp only [Slot.vacated] at equal
        rw [equal] at less
        exact Nat.lt_irrefl _ less
  turned index := by
    have turn := turns index
    rw [slot_clear]
    simp only [Log.emptied, Log.losses, accurate.turned] at turn ⊢
    cases found : slab.slot? index with
    | none =>
        have vacant : index ∉ log.live.map Key.index := by
          rw [accurate.filled_iff]
          rintro ⟨generation, entry, filled⟩
          rw [found] at filled
          cases filled
        simp [vacant]
    | some slot =>
        obtain ⟨generation, held⟩ := slot
        cases held with
        | none =>
            have vacant : index ∉ log.live.map Key.index := by
              rw [accurate.filled_iff]
              rintro ⟨generation, entry, filled⟩
              rw [found] at filled
              cases filled
            simp [vacant, Slot.vacated]
        | some entry =>
            have filled := accurate.filled_iff.2 ⟨generation, entry, found⟩
            rw [if_pos filled, found] at turn
            rw [if_pos filled]
            exact (generation_succ turn).symm

theorem Accurate.served (accurate : Accurate log slab) (request : Request α)
    (modest : Modest ((request, (slab.serve request).2) :: log) (slab.serve request).1) :
    Accurate ((request, (slab.serve request).2) :: log) (slab.serve request).1 := by
  cases request with
  | insert entry => exact accurate.insert (Nat.le_of_lt modest.slots)
  | overwrite key entry => exact accurate.overwrite key entry
  | remove key => exact accurate.remove key modest.turns
  | drain => exact accurate.drain (Nat.le_of_lt modest.earlier.slots) modest.turns
  | get key => exact accurate.unchanged (fun _ => rfl) rfl fun _ => rfl
  | contains key => exact accurate.unchanged (fun _ => rfl) rfl fun _ => rfl
  | length => exact accurate.unchanged (fun _ => rfl) rfl fun _ => rfl
  | isEmpty => exact accurate.unchanged (fun _ => rfl) rfl fun _ => rfl

theorem accurate_of_logged (logged : Logged log slab) (modest : Modest log slab) :
    Accurate log slab := by
  induction logged with
  | new => exact accurate_empty
  | served request logged ih => exact (ih modest.earlier).served request modest

/-- Nothing is ever stored again under a key that was given out and went dead. -/
theorem stored_of_dead {request : Request α} {answer : Answer α} {key : Key}
    (answered : Answered log request answer) (listed : key ∈ log.issued)
    (dead : log.stored key = none) : Log.stored ((request, answer) :: log) key = none := by
  rw [Log.stored_cons, dead]
  cases request with
  | insert entry =>
      obtain ⟨fresh, rfl, new⟩ := answered
      have apart : fresh ≠ key := by
        rintro rfl
        exact new listed
      exact if_neg apart
  | overwrite place entry => simp [Log.rewritten]
  | remove place => simp [Log.rewritten]
  | drain => rfl
  | get place => rfl
  | contains place => rfl
  | length => rfl
  | isEmpty => rfl

theorem issued_of_issued {event : Request α × Answer α} {key : Key} (listed : key ∈ log.issued) :
    key ∈ Log.issued (event :: log) := by
  obtain ⟨past, told, given⟩ := List.mem_filterMap.1 listed
  exact List.mem_filterMap.2 ⟨past, List.mem_cons_of_mem _ told, given⟩

theorem dead_of_drained (logged : Logged log slab) (modest : Modest log slab)
    {later earlier : Log α} {answer : Answer α} {key : Key}
    (split : log = later ++ (.drain, answer) :: earlier) (listed : key ∈ earlier.issued) :
    key ∈ log.issued ∧ log.stored key = none := by
  induction logged generalizing later with
  | new => simp at split
  | @served log slab request logged ih =>
      cases later with
      | nil =>
          obtain ⟨event, rest⟩ := List.cons.inj split
          rw [event, rest]
          exact ⟨issued_of_issued listed, rfl⟩
      | cons event later =>
          obtain ⟨member, dead⟩ := ih modest.earlier (List.cons.inj split).2
          have accurate := accurate_of_logged logged modest.earlier
          have answered := accurate.answered request (Nat.le_of_lt modest.slots)
          exact ⟨issued_of_issued member, stored_of_dead answered member dead⟩

theorem answered_of_logged (logged : Logged log slab) (modest : Modest log slab)
    {later earlier : Log α} {request : Request α} {answer : Answer α}
    (split : log = later ++ (request, answer) :: earlier) : Answered earlier request answer := by
  induction logged generalizing later with
  | new => simp at split
  | served request logged ih =>
      cases later with
      | nil =>
          obtain ⟨event, rest⟩ := List.cons.inj split
          cases event
          subst rest
          exact (accurate_of_logged logged modest.earlier).answered _ (Nat.le_of_lt modest.slots)
      | cons event later => exact ih modest.earlier (List.cons.inj split).2

/-- A slab is a map whose keys are new each time: every request is answered as the log says
that went before, a key that reaches nothing removes nothing, and what was given out before
a drain stays dead. -/
theorem map_of_logged (logged : Logged log slab) (modest : Modest log slab) :
    (∀ later request answer earlier, log = later ++ (request, answer) :: earlier →
        Answered earlier request answer) ∧
      (∀ key, log.stored key = none → (slab.serve (.remove key)).1 = slab) ∧
      ∀ later answer (earlier : Log α) key, log = later ++ (.drain, answer) :: earlier →
        key ∈ earlier.issued → slab.get? key = none := by
  have accurate := accurate_of_logged logged modest
  refine ⟨fun _ _ _ _ split => answered_of_logged logged modest split, ?_, ?_⟩
  · intro key dead
    apply erase_of_not_contains
    rw [contains, accurate.stored, dead]
    exact Bool.false_ne_true
  · intro later answer earlier key split listed
    rw [accurate.stored]
    exact (dead_of_drained logged modest split listed).2

theorem emptied_le_length (log : Log α) (index : UInt32) : log.emptied index ≤ log.length := by
  induction log with
  | nil => exact Nat.le_refl _
  | cons event earlier ih =>
      have once : Log.losses earlier index event ≤ 1 := by
        unfold Log.losses
        split
        · split <;> omega
        · split <;> omega
        · omega
      exact Nat.add_le_add ih once

/-- A slot that was drained is filled again, while its first key is still about. -/
theorem map_of_refilled_slot :
    let log : Log Nat :=
      [(.get ⟨0, 0⟩, .entry none), (.insert 9, .key ⟨0, 1⟩), (.drain, .entries [7]),
        (.insert 7, .key ⟨0, 0⟩)]
    let slab : Slab Nat := ⟨#[⟨1, some 9⟩], [], 1⟩
    Logged log slab ∧ Modest log slab ∧ Answered (log.drop 1) (.get ⟨0, 0⟩) (.entry none) ∧
      (slab.serve (.remove ⟨0, 0⟩)).1 = slab ∧ slab.get? ⟨0, 0⟩ = none := by
  intro log slab
  have cleared : ((empty.insert 7).clear : Slab Nat) = ⟨#[⟨1, none⟩], [0], 0⟩ := by
    decide +kernel
  have drained : Logged (log.drop 2) (⟨#[⟨1, none⟩], [0], 0⟩ : Slab Nat) := by
    rw [← cleared]
    exact .served .drain (.served (.insert 7) .new)
  have logged : Logged log slab := .served (.get ⟨0, 0⟩) (.served (.insert 9) drained)
  have modest : Modest log slab := by
    refine ⟨by decide, fun index => ?_⟩
    exact Nat.lt_of_le_of_lt (emptied_le_length log index) (by decide)
  obtain ⟨answers, still, dead⟩ := map_of_logged logged modest
  exact ⟨logged, modest, answers [] _ _ _ rfl, still ⟨0, 0⟩ rfl,
    dead (log.take 2) _ (log.drop 3) ⟨0, 0⟩ rfl (by decide)⟩

end Slab

end ScriptSignal
