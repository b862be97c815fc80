import ScriptSignal.Proofs.Serving

/-!
# Counts and the words that keep them

An engine keeps the count of an object in a word of 32 bits, which starts over once it is full. A
world counts on without end. The two agree as long as no count outgrows its word. What is said of
counts is therefore said of runs in which every count stays in bounds, from the start and at every
step on the way.
-/

namespace ScriptSignal

set_option autoImplicit false

namespace World

section Words

variable {world : World} {id : ObjectId}

def countWord (world : World) (id : ObjectId) : UInt32 := .ofNat (world.references id)

def InBounds (world : World) : Prop := ∀ id, world.references id < 2 ^ 32

/-- The words keep the counts just when these are in bounds. -/
theorem in_bounds_iff :
    world.InBounds ↔ ∀ id, (world.countWord id).toNat = world.references id := by
  have kept : ∀ id, (world.countWord id).toNat = world.references id % 2 ^ 32 :=
    fun id => UInt32.toNat_ofNat'
  constructor
  · intro inBounds id
    rw [kept, Nat.mod_eq_of_lt (inBounds id)]
  · intro same id
    rw [← same id]
    exact (world.countWord id).toNat_lt

theorem count_word_duplicate (alive : world.isAlive (.object id) = true) :
    (world.duplicate (.object id)).countWord id = world.countWord id + 1 := by
  obtain ⟨place, object, same, found⟩ := object_of_alive alive
  cases same
  have more : (world.duplicate (.object id)).references id = world.references id + 1 := by
    simp only [duplicate, found]
    rw [references_put id found, if_pos rfl, references_of_get id found]
  rw [countWord, more]
  exact UInt32.ofNat_add _ _

theorem count_word_release (referenced : 0 < world.references id) :
    (world.release (.object id)).1.countWord id = world.countWord id - 1 := by
  obtain ⟨object, count, found, counted⟩ := object_of_references referenced
  have before : world.references id = count + 1 := by rw [references_of_get id found, counted]
  have fewer : (world.release (.object id)).1.references id = count := by
    have put := references_put id found { object with refCount := count }
    rw [if_pos rfl] at put
    simp only [release, releaseObject, found, counted]
    split
    · split <;> exact put
    · exact put
  rw [countWord, countWord, fewer, before, ← Nat.add_sub_cancel count 1]
  exact UInt32.ofNat_sub (Nat.le_add_left 1 count)

def checkBounds (world : World) : Bool :=
  world.engine.heap.places.toList.all fun place =>
    place.all fun object => object.refCount < 2 ^ 32

theorem in_bounds_of_check (checked : world.checkBounds = true) : world.InBounds := by
  intro id
  cases found : world.engine.heap.get? id with
  | none => simp [references, found]
  | some object =>
      have listed := List.all_eq_true.1 checked _ (List.mem_of_getElem? (place_of_get found))
      rw [references_of_get id found]
      simpa using listed

end Words

end World

namespace Machine

/-- Every count stays in bounds until nothing is left to do. -/
def StaysInBounds (machine : Machine) : Prop := ∀ fuel, (machine.run fuel).world.InBounds

/-- A request is carried out, and meanwhile every count stays in bounds. -/
structure CompletesInBounds (machine : Machine) (step : Step) (ended : Machine) : Prop where
  completes : machine.Completes step ended
  bounds : (machine.submit step).StaysInBounds

def checkBounds : Nat → Machine → Bool
  | 0, machine => machine.world.checkBounds && machine.agenda.isEmpty
  | fuel + 1, machine =>
      machine.world.checkBounds && (machine.agenda.isEmpty || checkBounds fuel machine.step)

def checkBoundsAll (fuel : Nat) : Machine → List Step → Bool
  | _, [] => true
  | machine, step :: steps =>
      checkBounds fuel (machine.submit step) &&
        checkBoundsAll fuel ((machine.submit step).run fuel) steps

section Checks

variable {machine : Machine} {fuel : Nat}

theorem bounds_of_check (checked : checkBounds fuel machine = true) : machine.world.InBounds := by
  apply World.in_bounds_of_check
  cases fuel <;> exact (Bool.and_eq_true_iff.1 checked).1

theorem stays_in_bounds_of_check (checked : checkBounds fuel machine = true) :
    machine.StaysInBounds := by
  intro more
  induction more generalizing machine fuel with
  | zero => exact bounds_of_check checked
  | succ more induction =>
      unfold Machine.run
      split
      · exact bounds_of_check checked
      · rename_i busy
        cases fuel with
        | zero => exact absurd (Bool.and_eq_true_iff.1 checked).2 busy
        | succ fuel =>
            have onward := (Bool.and_eq_true_iff.1 checked).2
            rw [Bool.or_eq_true_iff] at onward
            exact induction (onward.resolve_left busy)

/-- What the fuel is enough to look at is run to its end. -/
theorem idle_of_check (checked : checkBounds fuel machine = true) :
    (machine.run fuel).agenda = [] := by
  induction fuel generalizing machine with
  | zero => exact List.isEmpty_iff.1 (Bool.and_eq_true_iff.1 checked).2
  | succ fuel induction =>
      unfold Machine.run
      split
      · rename_i idle
        exact List.isEmpty_iff.1 idle
      · rename_i busy
        have onward := (Bool.and_eq_true_iff.1 checked).2
        rw [Bool.or_eq_true_iff] at onward
        exact induction (onward.resolve_left busy)

theorem completes_of_check {step : Step} (checked : checkBounds fuel (machine.submit step) = true) :
    machine.CompletesInBounds step ((machine.submit step).run fuel) :=
  ⟨⟨fuel, rfl, idle_of_check checked⟩, stays_in_bounds_of_check checked⟩

end Checks

end Machine

end ScriptSignal
