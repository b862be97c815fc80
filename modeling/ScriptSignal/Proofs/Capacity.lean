import ScriptSignal.Proofs.Keys

/-!
# How far a slab grows

A new slot is made only while every slot is filled, so a slab has as many slots as it ever had
entries at one time. The free list names the empty slots, the one that was emptied last first, and
an insertion fills that one. When a slot was filled and when it was emptied is read off the log of
what was answered. Generations take no part in this: a slot may be emptied any number of times.
-/

namespace ScriptSignal

set_option autoImplicit false

universe u

namespace Slab

variable {α : Type u}

namespace Log

def population : Log α → Nat
  | [] => 0
  | (.insert _, _) :: earlier => population earlier + 1
  | (.remove _, .entry (some _)) :: earlier => population earlier - 1
  | (.drain, _) :: _ => 0
  | _ :: earlier => population earlier

/-- The most entries that there ever were at one time. -/
def peak : Log α → Nat
  | [] => 0
  | event :: earlier => max (population (event :: earlier)) (peak earlier)

/-- Whether a slot is filled after a request, where `before` says whether it was. -/
def refilled (index : UInt32) (before : Bool) : Request α × Answer α → Bool
  | (.insert _, .key key) => key.index = index || before
  | (.remove key, .entry (some _)) => key.index ≠ index && before
  | (.drain, _) => false
  | _ => before

def filled (log : Log α) (index : UInt32) : Bool :=
  log.foldr (fun event before => refilled index before event) false

/-- After how many requests a slot was emptied last, and zero if it never was. -/
def emptiedAt (index : UInt32) : Log α → Nat
  | [] => 0
  | event :: earlier =>
      if filled earlier index && !filled (event :: earlier) index then earlier.length + 1
      else emptiedAt index earlier

def Vacant (log : Log α) (index : UInt32) : Prop :=
  0 < log.emptiedAt index ∧ log.filled index = false

/-- A slot was emptied before another one. A drain empties the slots in ascending order. -/
def Sooner (log : Log α) (index other : UInt32) : Prop :=
  log.emptiedAt index < log.emptiedAt other ∨
    log.emptiedAt index = log.emptiedAt other ∧ index < other

/-- An entry goes into the slot that was emptied last. Only if no slot is vacant, it goes into a new
one, which has the next number. -/
def Placed (log : Log α) (entry : α) (key : Key) : Prop :=
  let slots := Log.peak ((.insert entry, .key key) :: log)
  (log.Vacant key.index ∧ (∀ index, log.Vacant index → index ≠ key.index →
      log.Sooner index key.index) ∧ slots = log.peak) ∨
    (∀ index, ¬log.Vacant index) ∧ key.index.toNat = log.peak ∧ slots = log.peak + 1

section Events

variable {log : Log α} {event : Request α × Answer α} {index : UInt32}

theorem filled_cons (event : Request α × Answer α) (earlier : Log α) (index : UInt32) :
    Log.filled (event :: earlier) index = refilled index (earlier.filled index) event := rfl

theorem emptied_at_cons (event : Request α × Answer α) (earlier : Log α) (index : UInt32) :
    Log.emptiedAt index (event :: earlier) =
      if earlier.filled index && !Log.filled (event :: earlier) index then earlier.length + 1
      else earlier.emptiedAt index := rfl

theorem emptied_at_of_kept
    (kept : log.filled index = true → Log.filled (event :: log) index = true) :
    Log.emptiedAt index (event :: log) = log.emptiedAt index := by
  rw [emptied_at_cons]
  cases before : log.filled index with
  | false => rfl
  | true => simp [kept before]

theorem emptied_at_of_lost (before : log.filled index = true)
    (after : Log.filled (event :: log) index = false) :
    Log.emptiedAt index (event :: log) = log.length + 1 := by
  simp [emptied_at_cons, before, after]

theorem emptied_at_le_length (log : Log α) (index : UInt32) :
    log.emptiedAt index ≤ log.length := by
  induction log with
  | nil => exact Nat.le_refl _
  | cons event earlier induction =>
      unfold emptiedAt
      split
      · exact Nat.le_refl _
      · exact Nat.le_succ_of_le induction

theorem Sooner.of_same {later : Log α} {other : UInt32} (sooner : log.Sooner index other)
    (first : later.emptiedAt index = log.emptiedAt index)
    (last : later.emptiedAt other = log.emptiedAt other) : later.Sooner index other := by
  unfold Sooner
  rw [first, last]
  exact sooner

theorem population_le_peak (log : Log α) : log.population ≤ log.peak := by
  cases log with
  | nil => exact Nat.le_refl _
  | cons event earlier => exact Nat.le_max_left _ _

theorem peak_of_no_more (fewer : Log.population (event :: log) ≤ log.population) :
    Log.peak (event :: log) = log.peak :=
  Nat.max_eq_right (Nat.le_trans fewer (population_le_peak log))

end Events

end Log

structure Compact (log : Log α) (slab : Slab α) : Prop where
  sound : slab.Sound
  populated : slab.count = log.population
  balanced : slab.count + slab.free.length = slab.capacity
  grown : slab.capacity = log.peak
  filled : ∀ index, log.filled index = true ↔
    ∃ generation entry, slab.slot? index = some ⟨generation, some entry⟩
  vacant : ∀ index, log.Vacant index ↔ index ∈ slab.free
  complete : ∀ index slot, slab.slot? index = some slot → slot.entry = none → index ∈ slab.free
  ordered : slab.free.Pairwise fun first second => log.Sooner second first

theorem compact_empty : Compact ([] : Log α) .empty where
  sound := sound_empty
  populated := rfl
  balanced := rfl
  grown := rfl
  filled index := by simp [Log.filled, slot?, empty]
  vacant index := by simp [Log.Vacant, Log.emptiedAt, empty]
  complete index slot found := by simp [slot?, empty] at found
  ordered := List.Pairwise.nil

section Compact

variable {log : Log α} {slab : Slab α} {event : Request α × Answer α} {index : UInt32}

theorem Compact.not_filled (compact : Compact log slab) :
    log.filled index = false ↔ ∀ slot, slab.slot? index = some slot → slot.entry = none := by
  rw [← Bool.not_eq_true, compact.filled]
  constructor
  · rintro none ⟨generation, held⟩ found
    cases held with
    | none => rfl
    | some entry => exact absurd ⟨generation, entry, found⟩ none
  · rintro none ⟨generation, entry, found⟩
    cases none _ found

theorem Compact.not_filled_of_free (compact : Compact log slab) (free : index ∈ slab.free) :
    log.filled index = false :=
  ((compact.vacant index).2 free).2

theorem Compact.unchanged (compact : Compact log slab)
    (population : Log.population (event :: log) = log.population)
    (filled : ∀ index, Log.filled (event :: log) index = log.filled index) :
    Compact (event :: log) slab := by
  have emptied : ∀ index, Log.emptiedAt index (event :: log) = log.emptiedAt index :=
    fun index => Log.emptied_at_of_kept fun before => (filled index).trans before
  refine ⟨compact.sound, compact.populated.trans population.symm, compact.balanced, ?_, ?_, ?_,
    compact.complete, ?_⟩
  · rw [Log.peak_of_no_more (Nat.le_of_eq population)]
    exact compact.grown
  · intro index
    rw [filled]
    exact compact.filled index
  · intro index
    unfold Log.Vacant
    rw [emptied, filled]
    exact compact.vacant index
  · exact compact.ordered.imp fun sooner => sooner.of_same (emptied _) (emptied _)

theorem count_of_insert (slab : Slab α) (entry : α) :
    (slab.insert entry).count = slab.count + 1 := by
  unfold Slab.insert
  split <;> rfl

theorem free_insert (slab : Slab α) (entry : α) :
    (slab.insert entry).free = slab.free.tail := by
  unfold Slab.insert
  split <;> simp_all

theorem capacity_of_full (full : slab.free = []) (entry : α) :
    (slab.insert entry).capacity = slab.capacity + 1 := by
  simp [Slab.insert, full, Slab.capacity]

theorem capacity_of_free {head : UInt32} {rest : List UInt32} (free : slab.free = head :: rest)
    (entry : α) : (slab.insert entry).capacity = slab.capacity := by
  simp [Slab.insert, free, Slab.capacity]

/-- A slot is made only for an entry that finds all slots filled. -/
theorem Compact.capacity_insert (compact : Compact log slab) (entry : α) :
    (slab.insert entry).capacity = max (slab.count + 1) slab.capacity ∧
      slab.count + 1 + slab.free.tail.length = (slab.insert entry).capacity := by
  have balanced := compact.balanced
  cases free : slab.free with
  | nil =>
      rw [free, List.length_nil] at balanced
      rw [capacity_of_full free, List.tail_nil, List.length_nil]
      omega
  | cons head rest =>
      rw [free, List.length_cons] at balanced
      rw [capacity_of_free free, List.tail_cons]
      omega

theorem mem_free_insert (sound : slab.Sound) {entry : α} :
    index ∈ (slab.insert entry).free ↔ index ∈ slab.free ∧ index ≠ slab.nextKey.index := by
  have distinct := sound.distinct
  rw [free_insert]
  cases free : slab.free with
  | nil => simp
  | cons head rest =>
      have next : slab.nextKey.index = head := by simp [nextKey, free]
      rw [free, List.nodup_cons] at distinct
      rw [next, List.tail_cons, List.mem_cons]
      constructor
      · intro later
        refine ⟨.inr later, ?_⟩
        rintro rfl
        exact distinct.1 later
      · rintro ⟨here | later, apart⟩
        · exact absurd here apart
        · exact later

theorem Compact.insert (compact : Compact log slab) {entry : α}
    (room : (slab.insert entry).capacity ≤ 2 ^ 32) :
    Compact ((.insert entry, .key slab.nextKey) :: log) (slab.insert entry) := by
  let event : Request α × Answer α := (.insert entry, .key slab.nextKey)
  have slots := slot_insert compact.sound entry room
  have filled : ∀ index, Log.filled (event :: log) index =
      (decide (slab.nextKey.index = index) || log.filled index) := fun _ => rfl
  have emptied : ∀ index, Log.emptiedAt index (event :: log) = log.emptiedAt index := by
    intro index
    apply Log.emptied_at_of_kept
    intro before
    rw [filled, before, Bool.or_true]
  have count := count_of_insert slab entry
  have populated : Log.population (event :: log) = slab.count + 1 := by
    rw [compact.populated]
    rfl
  have peak : Log.peak (event :: log) = max (slab.count + 1) slab.capacity := by
    rw [compact.grown, ← populated]
    rfl
  obtain ⟨capacity, balanced⟩ := compact.capacity_insert entry
  refine ⟨sound_insert compact.sound entry, count.trans populated.symm, ?_,
    capacity.trans peak.symm, ?_, ?_, ?_, ?_⟩
  · rw [count, free_insert, balanced]
  · intro index
    rw [slots, filled, Bool.or_eq_true, decide_eq_true_eq, compact.filled]
    by_cases same : index = slab.nextKey.index
    · simp [same]
    · simp [same, Ne.symm same]
  · intro index
    rw [mem_free_insert compact.sound, ← compact.vacant]
    unfold Log.Vacant
    rw [emptied, filled, Bool.or_eq_false_iff, decide_eq_false_iff_not]
    constructor
    · rintro ⟨once, apart, none⟩
      exact ⟨⟨once, none⟩, Ne.symm apart⟩
    · rintro ⟨⟨once, none⟩, apart⟩
      exact ⟨once, Ne.symm apart, none⟩
  · intro index slot found none
    rw [slots] at found
    split at found
    · cases found
      cases none
    · rename_i apart
      exact (mem_free_insert compact.sound).2 ⟨compact.complete index slot found none, apart⟩
  · rw [free_insert]
    exact compact.ordered.tail.imp fun sooner => sooner.of_same (emptied _) (emptied _)

theorem Compact.overwrite (compact : Compact log slab) (key : Key) (entry : α) (answer : Answer α) :
    Compact ((.overwrite key entry, answer) :: log) (slab.set key entry) := by
  have told : Compact ((.overwrite key entry, answer) :: log) slab :=
    compact.unchanged rfl fun _ => rfl
  by_cases present : slab.contains key = true
  · have slots := slot_set present entry
    have free : (slab.set key entry).free = slab.free := by simp [set, present]
    have count : (slab.set key entry).count = slab.count := by simp [set, present]
    obtain ⟨old, found⟩ := slot_of_contains present
    refine ⟨sound_set compact.sound key entry, count.trans told.populated, ?_, ?_, ?_, ?_, ?_, ?_⟩
    · rw [count, free, capacity_set]
      exact compact.balanced
    · rw [capacity_set]
      exact told.grown
    · intro index
      rw [told.filled, slots]
      by_cases same : index = key.index
      · simp [same, found]
      · simp [same]
    · rw [free]
      exact told.vacant
    · intro index slot reached none
      rw [slots] at reached
      rw [free]
      split at reached
      · cases reached
        cases none
      · exact compact.complete index slot reached none
    · rw [free]
      exact told.ordered
  · rw [set_of_not_contains present]
    exact told

theorem Compact.remove (compact : Compact log slab) (key : Key) :
    Compact ((.remove key, .entry (slab.get? key)) :: log) (slab.erase key) := by
  by_cases present : slab.contains key = true
  · obtain ⟨old, reached⟩ := contains_iff.1 present
    rw [reached]
    let event : Request α × Answer α := (.remove key, .entry (some old))
    have slots := slot_erase present
    have found := get_eq_some_iff.1 reached
    have here : log.filled key.index = true := (compact.filled _).2 ⟨_, _, found⟩
    have filled : ∀ index, Log.filled (event :: log) index =
        (decide (key.index ≠ index) && log.filled index) := fun _ => rfl
    have lost : Log.emptiedAt key.index (event :: log) = log.length + 1 :=
      Log.emptied_at_of_lost here (by simp [filled])
    have kept : ∀ index, index ≠ key.index →
        Log.emptiedAt index (event :: log) = log.emptiedAt index := by
      intro index apart
      apply Log.emptied_at_of_kept
      intro before
      simp [filled, before, Ne.symm apart]
    have free : (slab.erase key).free = key.index :: slab.free := by simp [erase, present]
    have count : (slab.erase key).count = slab.count - 1 := by simp [erase, present]
    have some : 0 < slab.count := by
      rw [compact.sound.counted]
      exact List.length_pos_of_mem (mem_entries_of_get reached)
    have balanced := compact.balanced
    have apart : ∀ index ∈ slab.free, index ≠ key.index := by
      rintro index listed rfl
      rw [compact.not_filled_of_free listed] at here
      cases here
    have populated : Log.population (event :: log) = slab.count - 1 := by
      rw [compact.populated]
      rfl
    refine ⟨sound_erase compact.sound key, count.trans populated.symm, ?_, ?_, ?_, ?_, ?_, ?_⟩
    · rw [count, free, capacity_erase, List.length_cons]
      omega
    · rw [capacity_erase, compact.grown]
      exact (Log.peak_of_no_more (Nat.sub_le _ _)).symm
    · intro index
      rw [filled, slots, Bool.and_eq_true, decide_eq_true_eq, compact.filled]
      by_cases same : index = key.index
      · simp [same]
      · simp [same, Ne.symm same]
    · intro index
      rw [free, List.mem_cons, ← compact.vacant]
      unfold Log.Vacant
      by_cases same : index = key.index
      · subst same
        rw [lost, filled]
        simp
      · rw [kept index same, filled]
        simp [same, Ne.symm same]
    · intro index slot held none
      rw [slots] at held
      rw [free]
      by_cases same : index = key.index
      · exact same ▸ List.mem_cons_self
      · rw [if_neg same] at held
        exact List.mem_cons_of_mem _ (compact.complete index slot held none)
    · rw [free]
      refine List.pairwise_cons.2 ⟨?_, ?_⟩
      · intro index listed
        refine .inl ?_
        rw [lost, kept index (apart index listed)]
        exact Nat.lt_succ_of_le (Log.emptied_at_le_length log index)
      · exact compact.ordered.imp_of_mem fun first second sooner =>
          sooner.of_same (kept _ (apart _ second)) (kept _ (apart _ first))
  · rw [erase_of_not_contains present, get_of_not_contains present]
    exact compact.unchanged rfl fun _ => rfl

theorem Compact.drain (compact : Compact log slab) (room : slab.capacity ≤ 2 ^ 32)
    (answer : Answer α) : Compact ((.drain, answer) :: log) slab.clear := by
  let event : Request α × Answer α := (.drain, answer)
  have free : slab.clear.free = slab.occupied.reverse ++ slab.free := rfl
  have here : ∀ index, index ∈ slab.occupied ↔ log.filled index = true := by
    intro index
    rw [compact.filled, occupied_eq_map_keys, List.mem_map]
    constructor
    · rintro ⟨key, listed, rfl⟩
      obtain ⟨entry, found⟩ := slot_of_contains ((mem_keys room).1 listed)
      exact ⟨key.generation, entry, found⟩
    · rintro ⟨generation, entry, found⟩
      refine ⟨⟨index, generation⟩, (mem_keys room).2 (contains_iff.2 ⟨entry, ?_⟩), rfl⟩
      exact get_eq_some_iff.2 found
  have lost : ∀ index ∈ slab.occupied, Log.emptiedAt index (event :: log) = log.length + 1 :=
    fun index listed => Log.emptied_at_of_lost ((here index).1 listed) rfl
  have kept : ∀ index, log.filled index = false →
      Log.emptiedAt index (event :: log) = log.emptiedAt index := by
    intro index none
    apply Log.emptied_at_of_kept
    rw [none]
    exact fun false => by cases false
  have all : slab.occupied.length = slab.count := by
    rw [occupied_eq_map_keys, List.length_map, length_keys, compact.sound.counted]
  have balanced := compact.balanced
  refine ⟨sound_clear compact.sound room, rfl, ?_, ?_, ?_, ?_, ?_, ?_⟩
  · rw [free, List.length_append, List.length_reverse, capacity_clear, all, ← balanced]
    exact Nat.zero_add _
  · rw [capacity_clear, compact.grown]
    exact (Log.peak_of_no_more (Nat.zero_le _)).symm
  · intro index
    rw [slot_clear]
    constructor
    · exact fun false => by cases false
    · rintro ⟨generation, entry, found⟩
      obtain ⟨slot, -, emptied⟩ := Option.map_eq_some_iff.1 found
      have none := entry_vacated slot
      rw [emptied] at none
      cases none
  · intro index
    rw [free, List.mem_append, List.mem_reverse, here, ← compact.vacant]
    unfold Log.Vacant
    cases before : log.filled index with
    | true => simp [lost index ((here index).2 before), Log.filled_cons, Log.refilled, event]
    | false => simp [kept index before, Log.filled_cons, Log.refilled, event]
  · intro index slot found none
    rw [slot_clear] at found
    obtain ⟨old, held, -⟩ := Option.map_eq_some_iff.1 found
    rw [free, List.mem_append, List.mem_reverse, here]
    cases before : log.filled index with
    | true => exact .inl rfl
    | false => exact .inr (compact.complete index old held (compact.not_filled.1 before old held))
  · rw [free]
    refine List.pairwise_append.2 ⟨?_, ?_, ?_⟩
    · rw [List.pairwise_reverse]
      have ascending : slab.occupied.Pairwise fun first second => first < second := by
        rw [occupied_eq_map_keys, List.pairwise_map]
        exact ascending_keys room
      refine ascending.imp_of_mem ?_
      intro first second early late less
      exact .inr ⟨(lost first early).trans (lost second late).symm, less⟩
    · exact compact.ordered.imp_of_mem fun first second sooner =>
        sooner.of_same (kept _ (compact.not_filled_of_free second))
          (kept _ (compact.not_filled_of_free first))
    · intro index listed other waiting
      refine .inl ?_
      rw [lost index (List.mem_reverse.1 listed), kept other (compact.not_filled_of_free waiting)]
      exact Nat.lt_succ_of_le (Log.emptied_at_le_length log other)

theorem Compact.served (compact : Compact log slab) (request : Request α)
    (room : (slab.serve request).1.capacity ≤ 2 ^ 32) :
    Compact ((request, (slab.serve request).2) :: log) (slab.serve request).1 := by
  cases request with
  | insert entry => exact compact.insert room
  | overwrite key entry => exact compact.overwrite key entry _
  | remove key => exact compact.remove key
  | drain => exact compact.drain (Nat.le_trans (capacity_le_serve slab .drain) room) _
  | get key => exact compact.unchanged rfl fun _ => rfl
  | contains key => exact compact.unchanged rfl fun _ => rfl
  | length => exact compact.unchanged rfl fun _ => rfl
  | isEmpty => exact compact.unchanged rfl fun _ => rfl

theorem compact_of_logged (logged : Logged log slab) (room : slab.capacity ≤ 2 ^ 32) :
    Compact log slab := by
  induction logged with
  | new => exact compact_empty
  | @served log slab request logged induction =>
      exact (induction (Nat.le_trans (capacity_le_serve slab request) room)).served request room

/-- The next entry goes to the head of the free list, which was emptied last. -/
theorem Compact.placed (compact : Compact log slab) {entry : α}
    (room : (slab.insert entry).capacity ≤ 2 ^ 32) : log.Placed entry slab.nextKey := by
  have grown := (compact.insert room).grown
  cases free : slab.free with
  | nil =>
      rw [capacity_of_full free] at grown room
      have number : slab.nextKey.index.toNat = slab.capacity := by
        simp only [nextKey, free]
        exact UInt32.toNat_ofNat_of_lt room
      refine .inr ⟨?_, number.trans compact.grown, ?_⟩
      · intro index vacant
        rw [compact.vacant, free] at vacant
        cases vacant
      · rw [← grown, compact.grown]
  | cons head rest =>
      rw [capacity_of_free free] at grown
      have next : slab.nextKey.index = head := by simp [nextKey, free]
      have ordered := compact.ordered
      rw [free] at ordered
      refine .inl ⟨?_, ?_, ?_⟩
      · rw [compact.vacant, next, free]
        exact List.mem_cons_self
      · intro index vacant apart
        rw [compact.vacant, free] at vacant
        rw [next] at apart ⊢
        exact (List.pairwise_cons.1 ordered).1 index ((List.mem_cons.1 vacant).resolve_left apart)
      · rw [← grown, compact.grown]

theorem placed_of_logged (logged : Logged log slab) (room : slab.capacity ≤ 2 ^ 32)
    {later earlier : Log α} {entry : α} {answer : Answer α}
    (split : log = later ++ (.insert entry, answer) :: earlier) :
    ∃ key, answer = .key key ∧ earlier.Placed entry key := by
  induction logged generalizing later with
  | new => simp at split
  | @served log slab request logged induction =>
      have before := Nat.le_trans (capacity_le_serve slab request) room
      cases later with
      | nil =>
          obtain ⟨event, rest⟩ := List.cons.inj split
          obtain ⟨rfl, answered⟩ := Prod.mk.inj event
          subst rest
          exact ⟨slab.nextKey, answered.symm, (compact_of_logged logged before).placed room⟩
      | cons event later => exact induction before (List.cons.inj split).2

/-- A slab has as many slots as it ever had entries at one time. Its free list names the empty
slots, each once, and every entry went into the slot that was emptied last, or into a new one when
none was empty. -/
theorem peak_of_logged (logged : Logged log slab) (room : slab.capacity < 2 ^ 32) :
    slab.capacity = log.peak ∧
      slab.text = "OpaqueTable \x7b len: " ++ toString log.population ++ ", capacity: " ++
        toString log.peak ++ " \x7d" ∧
      slab.free.Nodup ∧
      (∀ index, index ∈ slab.free ↔ ∃ slot, slab.slot? index = some slot ∧ slot.entry = none) ∧
      (∀ index, index ∈ slab.free ↔ log.Vacant index) ∧
      ∀ later entry answer (earlier : Log α), log = later ++ (.insert entry, answer) :: earlier →
        ∃ key, answer = .key key ∧ earlier.Placed entry key := by
  have compact := compact_of_logged logged (Nat.le_of_lt room)
  have shown : slab.text = "OpaqueTable \x7b len: " ++ toString log.population ++
      ", capacity: " ++ toString log.peak ++ " \x7d" := by
    unfold text
    rw [compact.populated, compact.grown]
  refine ⟨compact.grown, shown, compact.sound.distinct, ?_,
    fun index => (compact.vacant index).symm, ?_⟩
  · intro index
    constructor
    · exact compact.sound.vacant index
    · rintro ⟨slot, found, none⟩
      exact compact.complete index slot found none
  · intro later entry answer earlier split
    exact placed_of_logged logged (Nat.le_of_lt room) split

/-- Two slots were drained, a stale key removed nothing, and an entry went into the upper slot. -/
theorem peak_of_drained_slots :
    let log : Log Nat :=
      [(.insert 9, .key ⟨1, 1⟩), (.remove ⟨1, 0⟩, .entry none), (.drain, .entries [7, 8]),
        (.insert 8, .key ⟨1, 0⟩), (.insert 7, .key ⟨0, 0⟩)]
    let slab : Slab Nat := ⟨#[⟨1, none⟩, ⟨1, some 9⟩], [0], 1⟩
    Logged log slab ∧ slab.capacity < 2 ^ 32 ∧ slab.capacity = log.peak ∧ log.peak = 2 ∧
      log.Vacant 0 ∧ Log.Placed (log.drop 1) 9 ⟨1, 1⟩ ∧ Log.Vacant (log.drop 1) 1 := by
  intro log slab
  have cleared : (((empty.insert 7).insert 8).clear : Slab Nat) =
      ⟨#[⟨1, none⟩, ⟨1, none⟩], [1, 0], 0⟩ := by
    decide +kernel
  have drained : Logged (log.drop 2) (⟨#[⟨1, none⟩, ⟨1, none⟩], [1, 0], 0⟩ : Slab Nat) := by
    rw [← cleared]
    exact .served .drain (.served (.insert 8) (.served (.insert 7) .new))
  have logged : Logged log slab := .served (.insert 9) (.served (.remove ⟨1, 0⟩) drained)
  obtain ⟨grown, -, -, -, vacant, placed⟩ := peak_of_logged logged (by decide)
  obtain ⟨key, given, here⟩ := placed [] 9 (.key ⟨1, 1⟩) (log.drop 1) rfl
  cases given
  exact ⟨logged, by decide, grown, rfl, (vacant 0).1 (by decide), here, by decide, rfl⟩

end Compact

end Slab

end ScriptSignal
