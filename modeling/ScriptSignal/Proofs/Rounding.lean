import Mathlib.Tactic.Linarith
import ScriptSignal.Double.Arithmetic

/-!
# Results that need no rounding

A number of units that 53 bits can hold, but for zeros at its end, is rounded to itself. The whole
part of a number is of that kind, and so are all whole numbers below `2 ^ 53`. On the way from a
number to its 32-bit integer no other ones come up, so nothing is ever rounded there.
-/

namespace ScriptSignal.Double

set_option autoImplicit false

section Fields

variable {magnitude : Nat}

theorem to_nat_of_magnitude (negative : Bool) (bound : magnitude < 2 ^ 63) :
    (ofMagnitude negative magnitude).bits.toNat =
      (if negative then 2 ^ 63 else 0) + magnitude := by
  unfold ofMagnitude
  rw [UInt64.toNat_ofNat', Nat.shiftLeft_eq]
  cases negative with
  | false =>
      rw [if_neg Bool.false_ne_true, if_neg Bool.false_ne_true]
      omega
  | true =>
      rw [if_pos rfl, if_pos rfl]
      omega

theorem negative_of_magnitude (negative : Bool) (bound : magnitude < 2 ^ 63) :
    (ofMagnitude negative magnitude).negative = negative := by
  unfold Double.negative
  rw [to_nat_of_magnitude negative bound, Nat.shiftRight_eq_div_pow]
  cases negative <;> simp <;> omega

theorem exponent_field_of_magnitude (negative : Bool) (bound : magnitude < 2 ^ 63) :
    (ofMagnitude negative magnitude).exponentField = magnitude / 2 ^ 52 := by
  unfold exponentField
  rw [to_nat_of_magnitude negative bound, Nat.shiftRight_eq_div_pow]
  split <;> omega

theorem fraction_of_magnitude (negative : Bool) (bound : magnitude < 2 ^ 63) :
    (ofMagnitude negative magnitude).fraction = magnitude % 2 ^ 52 := by
  unfold fraction hiddenBit
  rw [to_nat_of_magnitude negative bound]
  split <;> omega

/-- Magnitudes count the numbers from zero on, and the numbers of one exponent are as far apart as
the exponent says. -/
theorem units_of_magnitude (negative : Bool) (bound : magnitude < 2 ^ 63) :
    (ofMagnitude negative magnitude).units =
      if magnitude < 2 ^ 52 then magnitude
      else (2 ^ 52 + magnitude % 2 ^ 52) * 2 ^ (magnitude / 2 ^ 52 - 1) := by
  unfold units significand exponent
  rw [exponent_field_of_magnitude negative bound, fraction_of_magnitude negative bound,
    Nat.shiftLeft_eq]
  by_cases small : magnitude < 2 ^ 52
  · have field : magnitude / 2 ^ 52 = 0 := Nat.div_eq_of_lt small
    rw [if_pos small, field, if_pos rfl, Nat.mod_eq_of_lt small]
    exact Nat.mul_one magnitude
  · have field : 1 ≤ magnitude / 2 ^ 52 := by omega
    rw [if_neg small, if_neg (by omega), Nat.max_eq_left field]
    rfl

end Fields

/-- A number has exactly so many units. -/
def Representable (units : Nat) : Prop :=
  ∃ significand places, significand < 2 ^ 53 ∧ places ≤ 2045 ∧ units = significand * 2 ^ places

structure Exact (x : Double) (negative : Bool) (units : Nat) : Prop where
  finite : x.isFinite = true
  sign : x.negative = negative
  units : x.units = units

section Representable

variable {units : Nat}

theorem Representable.dropped (representable : Representable units) :
    units.log2 - 52 ≤ 2045 ∧ 2 ^ (units.log2 - 52) ∣ units := by
  obtain ⟨significand, places, small, few, rfl⟩ := representable
  have within : (significand * 2 ^ places).log2 - 52 ≤ places := by
    by_cases none : significand * 2 ^ places = 0
    · simp [none]
    · have bound : significand * 2 ^ places < 2 ^ (53 + places) := by
        rw [Nat.pow_add]
        exact Nat.mul_lt_mul_of_pos_right small (Nat.two_pow_pos places)
      have below := (Nat.log2_lt none).2 bound
      omega
  refine ⟨Nat.le_trans within few, ?_⟩
  exact Nat.dvd_trans (Nat.pow_dvd_pow 2 within) (Nat.dvd_mul_left _ significand)

theorem kept_lt (units : Nat) : units / 2 ^ (units.log2 - 52) < 2 ^ 53 := by
  rw [Nat.div_lt_iff_lt_mul (Nat.two_pow_pos _), ← Nat.pow_add]
  refine Nat.lt_of_lt_of_le Nat.lt_log2_self (Nat.pow_le_pow_right (by decide) ?_)
  omega

theorem le_kept (some : units.log2 - 52 ≠ 0) : 2 ^ 52 ≤ units / 2 ^ (units.log2 - 52) := by
  have positive : units ≠ 0 := by
    rintro rfl
    simp at some
  rw [Nat.le_div_iff_mul_le (Nat.two_pow_pos _), ← Nat.pow_add]
  have whole : 52 + (units.log2 - 52) = units.log2 := by omega
  rw [whole]
  exact Nat.log2_self_le positive

theorem of_units_eq (negative : Bool) (representable : Representable units) :
    ofUnits negative units =
      ofMagnitude negative ((units.log2 - 52) * 2 ^ 52 + units / 2 ^ (units.log2 - 52)) := by
  obtain ⟨few, divides⟩ := representable.dropped
  have kept := kept_lt units
  have rest : units % (1 <<< (units.log2 - 52)) = 0 := by
    rw [Nat.one_shiftLeft]
    exact Nat.mod_eq_zero_of_dvd divides
  have positive : 1 <<< (units.log2 - 52) ≠ 0 := by
    rw [Nat.one_shiftLeft]
    exact Nat.ne_of_gt (Nat.two_pow_pos _)
  unfold ofUnits hiddenBit
  simp only [rest, Nat.mul_zero, Nat.not_lt_zero, positive, false_and, or_self, if_false,
    Nat.shiftRight_eq_div_pow]
  rw [Nat.min_eq_left (by omega)]
  rfl

theorem exact_of_units (negative : Bool) (representable : Representable units) :
    Exact (ofUnits negative units) negative units := by
  obtain ⟨few, divides⟩ := representable.dropped
  have kept := kept_lt units
  have whole := Nat.div_mul_cancel divides
  rw [of_units_eq negative representable]
  generalize shape : (units.log2 - 52) * 2 ^ 52 + units / 2 ^ (units.log2 - 52) = magnitude
  have bound : magnitude < 2047 * 2 ^ 52 := by omega
  have inside : magnitude < 2 ^ 63 := by omega
  refine ⟨?_, negative_of_magnitude negative inside, ?_⟩
  · unfold isFinite
    rw [exponent_field_of_magnitude negative inside]
    simp only [ne_eq, decide_eq_true_eq]
    omega
  · rw [units_of_magnitude negative inside]
    -- Where bits are dropped, the highest one that is kept carries into the exponent.
    by_cases none : units.log2 - 52 = 0
    · rw [none] at shape kept
      simp only [Nat.zero_mul, Nat.zero_add, Nat.pow_zero, Nat.div_one] at shape kept
      subst shape
      split
      · rfl
      · have field : units / 2 ^ 52 = 1 := by omega
        rw [field, Nat.sub_self, Nat.pow_zero, Nat.mul_one]
        omega
    · have least := le_kept none
      have field : magnitude / 2 ^ 52 - 1 = units.log2 - 52 := by omega
      have significand : 2 ^ 52 + magnitude % 2 ^ 52 = units / 2 ^ (units.log2 - 52) := by omega
      rw [if_neg (by omega), field, significand, whole]

end Representable

section Whole

variable {x : Double}

theorem one_eq : one = 2 ^ unitPlaces := Nat.one_shiftLeft unitPlaces

theorem one_pos : 0 < one := by
  rw [one_eq]
  exact Nat.two_pow_pos unitPlaces

theorem representable_whole {whole : Nat} (small : whole < 2 ^ 53) :
    Representable (whole * one) :=
  ⟨whole, unitPlaces, small, by decide, by rw [one_eq]⟩

theorem significand_lt (x : Double) : x.significand < 2 ^ 53 := by
  have fraction : x.fraction < 2 ^ 52 := Nat.mod_lt _ (by decide)
  unfold significand hiddenBit
  split <;> omega

theorem exponent_le (finite : x.isFinite = true) : x.exponent - 1 ≤ 2045 := by
  have field : x.exponentField < 2048 := Nat.mod_lt _ (by decide)
  simp only [isFinite, ne_eq, decide_eq_true_eq] at finite
  unfold exponent
  omega

theorem units_eq (x : Double) : x.units = x.significand * 2 ^ (x.exponent - 1) :=
  Nat.shiftLeft_eq _ _

theorem representable_whole_part (finite : x.isFinite = true) :
    Representable (x.units / one * one) := by
  by_cases large : unitPlaces ≤ x.exponent - 1
  · have divides : one ∣ x.units := by
      rw [one_eq, units_eq]
      exact Nat.dvd_trans (Nat.pow_dvd_pow 2 large) (Nat.dvd_mul_left _ _)
    rw [Nat.div_mul_cancel divides]
    exact ⟨x.significand, x.exponent - 1, significand_lt x, exponent_le finite, units_eq x⟩
  · apply representable_whole
    rw [Nat.div_lt_iff_lt_mul one_pos, one_eq, units_eq]
    exact Nat.mul_lt_mul_of_lt_of_le (significand_lt x)
      (Nat.pow_le_pow_right (by decide) (by omega)) (Nat.two_pow_pos _)

theorem is_zero_iff : x.isZero = true ↔ x.units = 0 := by
  rw [units_eq, Nat.mul_eq_zero, or_iff_left (Nat.ne_of_gt (Nat.two_pow_pos _))]
  unfold isZero significand hiddenBit
  rw [decide_eq_true_eq]
  split <;> omega

theorem exact_word_size : Exact wordSize false (2 ^ 32 * one) where
  finite := by decide
  sign := by decide
  units := by
    have significand : wordSize.significand = 2 ^ 52 := by decide
    have exponent : wordSize.exponent - 1 = 1054 := by decide
    have places : 52 + 1054 = 32 + unitPlaces := rfl
    rw [units_eq, one_eq, significand, exponent, ← Nat.pow_add, places, Nat.pow_add]

def wholePart (x : Double) : Int :=
  if x.negative then -((x.units / one : Nat) : Int) else (x.units / one : Nat)

theorem to_uint32_of_exact {whole : Nat} (exact : Exact x false (whole * one))
    (small : whole < 2 ^ 32) : x.toUInt32 = UInt32.ofNat whole := by
  have finite := exact.finite
  simp only [isFinite, ne_eq, decide_eq_true_eq] at finite
  have number : x.isNaN = false := by
    unfold isNaN
    simp [finite]
  unfold toUInt32
  rw [number, exact.sign, exact.units, Nat.mul_div_cancel _ one_pos, Nat.min_eq_left]
  · rfl
  · rw [Nat.one_shiftLeft]
    omega

/-- Integers that are equal modulo `2 ^ 32` are one 32-bit integer. -/
theorem of_int_congr {a b : Int} (same : a % 2 ^ 32 = b % 2 ^ 32) :
    Int32.ofInt a = Int32.ofInt b := by
  rw [Int32.ofInt_eq_iff_bmod_eq_toInt, Int32.toInt_ofInt]
  calc
    a.bmod (2 ^ 32) = (a % (2 ^ 32 : Nat)).bmod (2 ^ 32) := (Int.emod_bmod ..).symm
    _ = (b % (2 ^ 32 : Nat)).bmod (2 ^ 32) := congrArg (Int.bmod · (2 ^ 32)) same
    _ = b.bmod (2 ^ 32) := Int.emod_bmod ..

theorem exact_truncated (finite : x.isFinite = true) :
    Exact x.truncated x.negative (x.units / one * one) :=
  exact_of_units x.negative (representable_whole_part finite)

theorem exact_remainder {negative : Bool} {whole : Nat} (exact : Exact x negative (whole * one)) :
    Exact (x.remainder wordSize) negative (whole % 2 ^ 32 * one) := by
  have small : whole % 2 ^ 32 < 2 ^ 53 := by omega
  unfold remainder
  rw [exact.sign, exact.units, exact_word_size.units, Nat.mul_mod_mul_right]
  exact exact_of_units negative (representable_whole small)

theorem exact_add_word_size {whole : Nat} (exact : Exact x true (whole * one))
    (small : whole < 2 ^ 32) :
    Exact (x.add wordSize.magnitude) false ((2 ^ 32 - whole) * one) := by
  have same : wordSize.magnitude = wordSize := by decide
  have less : whole * one < 2 ^ 32 * one := Nat.mul_lt_mul_of_pos_right small one_pos
  have sum : x.signedUnits + wordSize.signedUnits = (((2 ^ 32 - whole) * one : Nat) : Int) := by
    unfold signedUnits
    rw [exact.sign, exact.units, exact_word_size.sign, exact_word_size.units, Nat.sub_mul]
    simp only [if_true, Bool.false_eq_true, if_false]
    omega
  have positive : 0 < (2 ^ 32 - whole) * one := Nat.mul_pos (by omega) one_pos
  unfold add
  rw [same, sum]
  simp only [Int.natAbs_natCast]
  rw [if_neg (by omega), decide_eq_false (by omega)]
  exact exact_of_units false (representable_whole (by omega))

theorem to_int32_eq (finite : x.isFinite = true) : x.toInt32 = Int32.ofInt x.wholePart := by
  have truncated := exact_truncated finite
  have rest := exact_remainder truncated
  have small : x.units / one % 2 ^ 32 < 2 ^ 32 := Nat.mod_lt _ (by decide)
  unfold toInt32 euclideanRemainder wholePart
  dsimp only
  rw [if_pos finite, rest.sign]
  generalize x.units / one = whole at *
  cases negative : x.negative with
  | false =>
      rw [negative] at rest
      simp only [Bool.false_and, Bool.false_eq_true, if_false]
      rw [to_uint32_of_exact rest small, UInt32.toInt32_ofNat', ← Int32.ofInt_eq_ofNat]
      exact of_int_congr (by omega)
  | true =>
      rw [negative] at rest
      simp only [Bool.true_and, Bool.not_eq_true', if_true]
      cases zero : (x.truncated.remainder wordSize).isZero with
      | true =>
          have none := is_zero_iff.1 zero
          rw [rest.units] at none
          have gone : whole % 2 ^ 32 = 0 :=
            (Nat.mul_eq_zero.1 none).resolve_right (Nat.ne_of_gt one_pos)
          have word : (x.truncated.remainder wordSize).toUInt32 = 0 := by
            simp [toUInt32, rest.sign]
          rw [if_neg (by decide), word]
          exact of_int_congr (a := 0) (by omega)
      | false =>
          have some : whole % 2 ^ 32 ≠ 0 := by
            intro none
            have missing := is_zero_iff.2 (rest.units.trans (by rw [none, Nat.zero_mul]))
            rw [zero] at missing
            cases missing
          have sum := exact_add_word_size rest small
          rw [if_pos rfl, to_uint32_of_exact sum (by omega), UInt32.toInt32_ofNat',
            ← Int32.ofInt_eq_ofNat]
          apply of_int_congr
          rw [Int.ofNat_sub (Nat.le_of_lt small)]
          omega

end Whole

end ScriptSignal.Double
