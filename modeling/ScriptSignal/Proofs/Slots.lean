import ScriptSignal.Proofs.Inscriptions
import ScriptSignal.Proofs.Trails

/-!
# Slots as registers

A key and the word it is packed into are one and the same. The slot of an instance therefore gives
back what was written to it, until it is written again or the instance has left the heap. Only those
who name the class of the instance read or write it.
-/

namespace ScriptSignal

set_option autoImplicit false

theorem Key.to_bits_of_bits (bits : UInt64) : (Key.ofBits bits).toBits = bits := by
  have word := bits.toNat_lt
  have low : bits.toNat % 2 ^ 32 < 2 ^ 32 := Nat.mod_lt _ (by decide)
  have half : UInt64.toNat 32 % 64 = 32 := rfl
  have high : bits.toNat >>> 32 % 2 ^ 32 = bits.toNat >>> 32 := by
    apply Nat.mod_eq_of_lt
    rw [Nat.shiftRight_eq_div_pow]
    omega
  have raised : (bits.toNat >>> 32) <<< 32 < 2 ^ 64 := by
    rw [Nat.shiftLeft_eq, Nat.shiftRight_eq_div_pow]
    omega
  apply UInt64.toNat_inj.1
  simp only [ofBits, toBits, UInt64.toNat_or, UInt64.toNat_shiftLeft, UInt32.toNat_toUInt64,
    UInt64.toNat_toUInt32, UInt64.toNat_shiftRight, half]
  rw [high, Nat.mod_eq_of_lt raised, ← Nat.shiftLeft_add_eq_or_of_lt low, Nat.shiftLeft_eq,
    Nat.shiftRight_eq_div_pow]
  exact Nat.div_add_mod' bits.toNat (2 ^ 32)

namespace World

section Slots

variable {before after world : World} {value : Value} {classId : ClassId}

theorem slot_key_of_alien (alien : world.classOf? value ≠ some classId) :
    world.slotKey? value classId = none := by
  cases slot : world.slotKey? value classId with
  | none => rfl
  | some key => exact absurd (class_of_slot_key slot) alien

theorem set_slot_of_alien (alien : world.classOf? value ≠ some classId) (key : Option Key) :
    world.setSlot value classId key = world := by
  rcases set_slot_cases world value classId key with
    ⟨same, -⟩ | ⟨id, object, slot, rfl, found, native, -⟩
  · exact same
  · refine absurd ?_ alien
    simp [classOf?, object?, Value.object?, found, native]

theorem alive_of_class (ofClass : world.classOf? value = some classId) :
    world.isAlive value = true := by
  rw [class_of_eq] at ofClass
  obtain ⟨kind, found, -⟩ := Option.bind_eq_some_iff.1 ofClass
  exact is_alive_iff.2 (by rw [found]; rfl)

theorem slot_key_inscribe {inscription : Inscription}
    (other : ∀ key, inscription ≠ .slot value classId key) :
    (world.inscribe inscription).slotKey? value classId = world.slotKey? value classId := by
  cases inscription with
  | reserve => rfl
  | define ofClass definition =>
      rcases inscribe_define_cases world ofClass definition with ⟨-, same⟩ | ⟨-, same⟩
      · rw [same, slot_key_eq, slot_key_eq, kind_define]
        split
        · rename_i new
          rw [new, kind_next]
          rfl
        · rfl
      · rw [same]
  | slot target ofClass key =>
      refine (slot_key_set_slot world target ofClass key value classId).trans (if_neg ?_)
      rintro ⟨rfl, rfl, -⟩
      exact other key rfl

theorem slot_key_inscribed {inscriptions : List Inscription}
    (unwritten : ∀ key, Inscription.slot value classId key ∉ inscriptions) :
    (inscriptions.foldl inscribe world).slotKey? value classId = world.slotKey? value classId := by
  induction inscriptions generalizing world with
  | nil => rfl
  | cons inscription inscriptions induction =>
      have rest := @induction (world.inscribe inscription) fun key member =>
        unwritten key (List.mem_cons_of_mem _ member)
      refine rest.trans (slot_key_inscribe ?_)
      rintro key rfl
      exact unwritten key List.mem_cons_self

/-- The slot of an object that is there is as it was. If the object is new, the slot is empty. -/
theorem Retains.slot_key (retains : Retains before after) (alive : after.isAlive value = true) :
    after.slotKey? value classId = before.slotKey? value classId := by
  obtain ⟨kind, found⟩ := Option.isSome_iff_exists.1 (is_alive_iff.1 alive)
  rcases retains.kinds value kind found with same | ⟨beyond, unbound⟩
  · rw [slot_key_eq, slot_key_eq, found, same]
  · have absent : before.slotKey? value classId = none := by
      cases value with
      | object id =>
          have missing : before.engine.heap.get? id = none :=
            Heap.get_eq_none_of_size_le (Nat.le_of_not_lt beyond)
          simp [slotKey?, object?, Value.object?, missing]
      | _ => rfl
    rw [absent, slot_key_eq, found]
    cases kind with
    | native ofClass slot =>
        obtain ⟨rfl, -⟩ := unbound
        simp [ObjectKind.key?]
    | _ => rfl

end Slots

end World

namespace Machine

/-- Anything may be done, except that the slot of one value is not written under one class. -/
inductive Undisturbed (value : Value) (classId : ClassId) (machine : Machine) : Machine → Prop
  | refl : Undisturbed value classId machine machine
  | submit {later : Machine} (undisturbed : Undisturbed value classId machine later)
      (idle : later.agenda = []) (step : Step) :
      Undisturbed value classId machine (later.submit step)
  | step {later : Machine} (undisturbed : Undisturbed value classId machine later)
      (unwritten : ∀ key, Inscription.slot value classId key ∉ later.inscriptions) :
      Undisturbed value classId machine later.step

section Undisturbed

variable {machine later : Machine} {value : Value} {classId : ClassId} {key : Option Key}

theorem Undisturbed.nexts (undisturbed : Undisturbed value classId machine later) :
    Relation.ReflTransGen Next machine later := by
  induction undisturbed with
  | refl => exact .refl
  | submit _ idle step induction => exact induction.tail (.submit step idle)
  | step _ _ induction => exact induction.tail .step

theorem Attained.running_of_alive (attained : machine.Attained)
    (alive : machine.world.isAlive value = true) : machine.world.engine.running = true := by
  cases runs : machine.world.engine.running with
  | true => rfl
  | false =>
      cases value with
      | object id =>
          have empty : machine.world.engine.heap.get? id = none := by
            rw [(attained.kept.stopped runs).1]
            exact Heap.get_eq_none_of_size_le (Nat.zero_le _)
          simp [World.isAlive, World.object?, Value.object?, empty] at alive
      | _ => cases alive

/-- A step after which the object is there leaves its slot as what is written makes it. -/
theorem Attained.slot_key_step (attained : machine.Attained)
    (alive : machine.step.world.isAlive value = true) :
    machine.step.world.slotKey? value classId =
      (machine.inscriptions.foldl World.inscribe machine.world).slotKey? value classId := by
  have goes := attained.step.running_of_alive alive
  exact (attained.retains_step (attained.running_of_step goes) goes).slot_key alive

theorem Undisturbed.slot_key (undisturbed : Undisturbed value classId machine.step later)
    (attained : machine.Attained)
    (written : Inscription.slot value classId key ∈ machine.inscriptions)
    (ofClass : machine.world.classOf? value = some classId)
    (alive : later.world.isAlive value = true) : later.world.slotKey? value classId = key := by
  induction undisturbed with
  | refl =>
      rw [attained.slot_key_step alive, inscriptions_eq_singleton written]
      exact (World.slot_key_set_slot machine.world value classId key value classId).trans
        (if_pos ⟨rfl, rfl, ofClass⟩)
  | submit _ _ _ induction => exact induction alive
  | @step later undisturbed unwritten induction =>
      have nexts := Relation.ReflTransGen.head .step undisturbed.nexts
      have attains := attained.nexts nexts
      -- No place is given out twice, so an instance that is there now was there all the while.
      have present : later.world.isAlive value = true := by
        cases value with
        | object id =>
            obtain ⟨first, was⟩ := Option.isSome_iff_exists.1 (World.alive_of_class ofClass)
            obtain ⟨last, found⟩ := Option.isSome_iff_exists.1 alive
            obtain ⟨held, there⟩ := attained.present was nexts found
            exact Option.isSome_iff_exists.2 ⟨held, there⟩
        | _ => cases ofClass
      rw [attains.slot_key_step alive, World.slot_key_inscribed unwritten, induction present]

def leavesSlot (value : Value) (classId : ClassId) : Nat → Machine → Bool
  | 0, _ => true
  | fuel + 1, machine =>
      machine.agenda.isEmpty ||
        (machine.inscriptions.all fun inscription => !inscription.marks value classId) &&
          leavesSlot value classId fuel machine.step

def leavesSlotAll (value : Value) (classId : ClassId) (fuel : Nat) : Machine → List Step → Bool
  | _, [] => true
  | machine, step :: steps =>
      machine.agenda.isEmpty && leavesSlot value classId fuel (machine.submit step) &&
        leavesSlotAll value classId fuel ((machine.submit step).run fuel) steps

theorem Undisturbed.run {fuel : Nat} (undisturbed : Undisturbed value classId machine later)
    (checked : leavesSlot value classId fuel later = true) :
    Undisturbed value classId machine (later.run fuel) := by
  induction fuel generalizing later with
  | zero => exact undisturbed
  | succ fuel induction =>
      unfold Machine.run
      split
      · exact undisturbed
      · rename_i busy
        obtain ⟨unmarked, onward⟩ :=
          Bool.and_eq_true_iff.1 ((Bool.or_eq_true_iff.1 checked).resolve_left busy)
        refine induction (undisturbed.step fun key member => ?_) onward
        simpa [Inscription.marks] using List.all_eq_true.1 unmarked _ member

theorem Undisturbed.run_all {fuel : Nat} {steps : List Step}
    (undisturbed : Undisturbed value classId machine later)
    (checked : leavesSlotAll value classId fuel later steps = true) :
    Undisturbed value classId machine (runAll fuel later steps) := by
  induction steps generalizing later with
  | nil => exact undisturbed
  | cons step steps induction =>
      obtain ⟨first, others⟩ := Bool.and_eq_true_iff.1 checked
      obtain ⟨idle, leaves⟩ := Bool.and_eq_true_iff.1 first
      exact induction ((undisturbed.submit (List.isEmpty_iff.1 idle) step).run leaves) others

end Undisturbed

structure Registers (machine : Machine) : Prop where
  /-- What is written to the slot of an instance is read from it until something is written to it
  again, or the instance has left the heap. -/
  written : ∀ value classId key, Inscription.slot value classId key ∈ machine.inscriptions →
    machine.world.classOf? value = some classId →
    ∀ later, Undisturbed value classId machine.step later → later.world.isAlive value = true →
      later.world.slotKey? value classId = key
  /-- A client that names another class, or has no instance at hand, writes nothing at all. -/
  refused : ∀ label operand classId key keep rest,
    machine.agenda = .perform (.act label (.object (.setSlot operand classId key)) keep) :: rest →
    machine.world.classOf? (machine.read operand) ≠ some classId →
    machine.step.world = machine.world
  /-- And neither does it read anything. -/
  alien : ∀ value classId, machine.world.classOf? value ≠ some classId →
    machine.world.slotKey? value classId = none

/-- Keys are words, and in every machine that comes about slots hold them. -/
theorem registers_of_attained {machine : Machine} (attained : machine.Attained) :
    (∀ key : Key, Key.ofBits key.toBits = key) ∧
      (∀ bits : UInt64, (Key.ofBits bits).toBits = bits) ∧ machine.Registers := by
  refine ⟨Key.of_bits_to_bits, Key.to_bits_of_bits, ?_, ?_, ?_⟩
  · intro value classId key written ofClass later undisturbed alive
    exact undisturbed.slot_key attained written ofClass alive
  · intro label operand classId key keep rest shape alien
    rw [step_act_eq shape rfl]
    change (machine.world.perform machine.read _).1 = machine.world
    unfold World.perform
    split
    · rfl
    · exact World.set_slot_of_alien alien key
  · intro value classId alien
    exact World.slot_key_of_alien alien

def markedInstance : Machine :=
  (runAll 20 (start .deferred)
    [.act "reserve" (.classes .reserve) none,
      .define "define" ⟨0⟩ "Holder" default [] default,
      .act "make" (.classes (.instantiate (.literal .undefined) ⟨0⟩)) (some "holder"),
      .act "make" (.classes (.instantiate (.literal .undefined) ⟨0⟩)) (some "other")]).submit
    (.act "mark" (.object (.setSlot (.register "holder") ⟨0⟩ (some ⟨7, 3⟩))) none)

/-- The other instance is given a key as well, and is collected. -/
def unmarking : List Step :=
  [.act "mark" (.object (.setSlot (.register "other") ⟨0⟩ (some ⟨8, 4⟩))) none,
    .act "set" (.object (.setProperty (.register "holder") "kept" (.literal .undefined))) none,
    .act "release" (.object (.release (.register "other"))) none,
    .act "collect" (.object .collect) none]

theorem registers_of_marked_instance :
    markedInstance.inscriptions = [.slot (.object ⟨1⟩) ⟨0⟩ (some ⟨7, 3⟩)] ∧
      markedInstance.world.classOf? (.object ⟨1⟩) = some ⟨0⟩ ∧ markedInstance.Registers ∧
      (runAll 20 (markedInstance.step.run 20) unmarking).world.isAlive (.object ⟨2⟩) = false ∧
      (runAll 20 (markedInstance.step.run 20) unmarking).world.slotKey? (.object ⟨1⟩) ⟨0⟩ =
        some ⟨7, 3⟩ := by
  have attained : markedInstance.Attained :=
    ((attained_start .deferred).run_all 20 (by decide)).submit rfl _
  have registers := (registers_of_attained attained).2.2
  have marks : markedInstance.inscriptions = [.slot (.object ⟨1⟩) ⟨0⟩ (some ⟨7, 3⟩)] := rfl
  have finished : Undisturbed (.object ⟨1⟩) ⟨0⟩ markedInstance.step (markedInstance.step.run 20) :=
    Undisturbed.refl.run rfl
  have undisturbed := @Undisturbed.run_all _ _ _ _ 20 unmarking finished rfl
  exact ⟨marks, rfl, registers, rfl,
    registers.written _ _ _ (by rw [marks]; exact List.mem_singleton_self _) rfl _ undisturbed rfl⟩

end Machine

end ScriptSignal
