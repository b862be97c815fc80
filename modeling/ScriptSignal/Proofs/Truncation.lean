import Mathlib.Data.Int.ModEq
import Mathlib.Data.Rat.Floor
import Mathlib.Tactic.FieldSimp
import ScriptSignal.Proofs.Rounding
import ScriptSignal.Value

/-!
# The 32-bit integer of a number

A finite number is a rational number by the fields of its bits. What it converts to is that rational
without its fractional part, modulo `2 ^ 32`, however far apart the numbers of its exponent are.
-/

namespace ScriptSignal

set_option autoImplicit false

/-- The integer between a rational number and zero that is nearest to the rational. -/
def towardZero (q : ℚ) : Int := if 0 ≤ q then ⌊q⌋ else ⌈q⌉

theorem toward_zero_div (numerator denominator : Nat) :
    towardZero (numerator / denominator) = (numerator / denominator : Nat) := by
  have sign : (0 : ℚ) ≤ numerator / denominator := by positivity
  unfold towardZero
  rw [if_pos sign, Int.floor_div_natCast, Int.floor_natCast]
  exact (Int.natCast_div numerator denominator).symm

theorem toward_zero_neg (q : ℚ) : towardZero (-q) = -towardZero q := by
  unfold towardZero
  rcases lt_trichotomy q 0 with below | rfl | above
  · rw [if_pos (by linarith), if_neg (by linarith), Int.floor_neg]
  · simp
  · rw [if_neg (by linarith), if_pos (by linarith), Int.ceil_neg]

theorem toward_zero_int (whole : Int) : towardZero whole = whole := by
  simp [towardZero]

namespace Double

section Rational

variable {x y : Double}

/-- The rational number that a finite number stands for. An empty exponent field stands for the same
power as the field one, with nothing before the binary point. -/
def value (x : Double) : ℚ :=
  (if x.negative then -1 else 1) *
    if x.exponentField = 0 then x.fraction / 2 ^ 52 * (2 : ℚ) ^ (-1022 : ℤ)
    else (1 + x.fraction / 2 ^ 52) * (2 : ℚ) ^ ((x.exponentField : ℤ) - 1023)

theorem hidden_bit_eq : (hiddenBit : ℚ) = 2 ^ 52 := by
  norm_num [hiddenBit]

theorem units_div_one (x : Double) :
    (x.units / one : ℚ) = x.significand / 2 ^ 52 * 2 ^ ((x.exponent : ℤ) - 1023) := by
  have positive : 1 ≤ x.exponent := Nat.le_max_right _ _
  have power : (2 : ℚ) ^ ((x.exponent : ℤ) - 1023) * 2 ^ 1022 = 2 ^ (x.exponent - 1) := by
    rw [← zpow_natCast, ← zpow_natCast, ← zpow_add₀ two_ne_zero]
    congr 1
    push_cast [positive]
    ring
  have unit : (one : ℚ) = 2 ^ 52 * 2 ^ 1022 := by
    rw [one_eq, ← pow_add, Nat.cast_pow]
    rfl
  rw [units_eq, unit]
  push_cast
  rw [← power]
  field_simp

theorem value_eq (x : Double) :
    x.value = if x.negative then -(x.units / one : ℚ) else x.units / one := by
  have magnitude : (x.units / one : ℚ) =
      if x.exponentField = 0 then x.fraction / 2 ^ 52 * (2 : ℚ) ^ (-1022 : ℤ)
      else (1 + x.fraction / 2 ^ 52) * (2 : ℚ) ^ ((x.exponentField : ℤ) - 1023) := by
    rw [units_div_one]
    unfold significand exponent
    by_cases low : x.exponentField = 0
    · rw [if_pos low, if_pos low, low]
      rfl
    · rw [if_neg low, if_neg low, Nat.max_eq_left (Nat.one_le_iff_ne_zero.2 low)]
      push_cast
      rw [hidden_bit_eq, add_div, div_self (by positivity)]
  unfold value
  rw [magnitude]
  split
  · exact neg_one_mul _
  · exact one_mul _

theorem whole_part_eq (x : Double) : x.wholePart = towardZero x.value := by
  rw [value_eq]
  unfold wholePart
  split
  · rw [toward_zero_neg, toward_zero_div]
  · rw [toward_zero_div]

theorem exists_value_eq (n : Int32) : ∃ x : Double, x.isFinite = true ∧ x.value = n.toInt := by
  have least := Int32.le_toInt n
  have most := Int32.toInt_lt n
  have small : n.toInt.natAbs < 2 ^ 53 := by omega
  have exact := exact_of_units (decide (n.toInt < 0)) (representable_whole small)
  refine ⟨_, exact.finite, ?_⟩
  have unit : (one : ℚ) ≠ 0 := Nat.cast_ne_zero.2 (Nat.ne_of_gt one_pos)
  rw [value_eq, exact.sign, exact.units, Nat.cast_mul, mul_div_cancel_right₀ _ unit]
  by_cases negative : n.toInt < 0
  · rw [if_pos (decide_eq_true negative), ← Int.cast_natCast,
      Int.ofNat_natAbs_of_nonpos negative.le]
    push_cast
    ring
  · rw [if_neg (by simpa using negative), ← Int.cast_natCast,
      Int.natAbs_of_nonneg (Int.not_lt.1 negative)]

end Rational

section Opposite

def opposite (x : Double) : Double := ⟨x.bits ^^^ 0x8000000000000000⟩

variable (x : Double)

theorem fraction_opposite : x.opposite.fraction = x.fraction := by
  have sign : (0x8000000000000000 : UInt64).toNat % 2 ^ 52 = 0 := by decide
  change x.opposite.bits.toNat % 2 ^ 52 = x.bits.toNat % 2 ^ 52
  unfold opposite
  rw [UInt64.toNat_xor, Nat.xor_mod_two_pow, sign, Nat.xor_zero]

theorem exponent_field_opposite : x.opposite.exponentField = x.exponentField := by
  have sign : ((0x8000000000000000 : UInt64).toNat >>> 52) % 2 ^ 11 = 0 := by decide
  change (x.opposite.bits.toNat >>> 52) % 2 ^ 11 = (x.bits.toNat >>> 52) % 2 ^ 11
  unfold opposite
  rw [UInt64.toNat_xor, Nat.shiftRight_xor_distrib, Nat.xor_mod_two_pow, sign, Nat.xor_zero]

theorem negative_opposite : x.opposite.negative = !x.negative := by
  have sign : (0x8000000000000000 : UInt64).toNat >>> 63 = 1 := by decide
  have bound : x.bits.toNat >>> 63 < 2 := by
    have word := x.bits.toNat_lt
    rw [Nat.shiftRight_eq_div_pow]
    omega
  unfold negative opposite
  rw [UInt64.toNat_xor, Nat.shiftRight_xor_distrib, sign]
  generalize x.bits.toNat >>> 63 = bit at bound
  have cases : bit = 0 ∨ bit = 1 := by omega
  rcases cases with rfl | rfl <;> rfl

theorem value_opposite : x.opposite.value = -x.value := by
  unfold value
  rw [fraction_opposite, exponent_field_opposite, negative_opposite, ← neg_mul]
  congr 1
  cases x.negative <;> simp

end Opposite

end Double

namespace Value

variable {x y : Double}

theorem to_int32_of_finite (finite : x.exponentField ≠ 2047) :
    (Value.float x).toInt32 = .ok (Int32.ofInt (towardZero x.value)) := by
  have same := Double.to_int32_eq (x := x) (by simpa [Double.isFinite] using finite)
  rw [Double.whole_part_eq] at same
  exact congrArg Except.ok same

theorem to_int32_of_infinite (infinite : x.exponentField = 2047) :
    (Value.float x).toInt32 = .ok 0 := by
  simp [toInt32, Double.toInt32, Double.isFinite, infinite]

/-- The integer of 32 bits that a whole number is modulo `2 ^ 32`. -/
theorem eq_of_int_iff (n : Int32) (whole : Int) :
    n = Int32.ofInt whole ↔ n.toInt ≡ whole [ZMOD 2 ^ 32] := by
  constructor
  · rintro rfl
    rw [Int32.toInt_ofInt]
    exact Int.bmod_emod
  · intro congruent
    rw [← Int32.ofInt_toInt n]
    exact Double.of_int_congr congruent

structure Wraps (convert : Value → Except Failure Int32) : Prop where
  /-- Infinities and what is no number are zero. -/
  beyond : ∀ x : Double, x.exponentField = 2047 → convert (.float x) = .ok 0
  /-- Any other number is the one integer that its whole part is modulo `2 ^ 32`. -/
  whole : ∀ x : Double, x.exponentField ≠ 2047 →
    ∃ n, convert (.float x) = .ok n ∧
      ∀ m : Int32, m.toInt ≡ towardZero x.value [ZMOD 2 ^ 32] ↔ m = n
  /-- Every integer of 32 bits is a number, and every such number is converted to it. -/
  integer : ∀ n : Int32, (∃ x : Double, x.exponentField ≠ 2047 ∧ x.value = n.toInt) ∧
    ∀ x : Double, x.exponentField ≠ 2047 → x.value = n.toInt → convert (.float x) = .ok n
  /-- Whole numbers that differ by a multiple of `2 ^ 32` are converted alike. -/
  periodic : ∀ (x y : Double) (whole times : Int),
    x.exponentField ≠ 2047 → y.exponentField ≠ 2047 →
    x.value = whole → y.value = x.value + times * 2 ^ 32 →
    convert (.float y) = convert (.float x)
  /-- The opposite number is converted to the opposite integer. -/
  opposite : ∀ x : Double, x.opposite.value = -x.value ∧
    convert (.float x.opposite) = (convert (.float x)).map (- ·)

theorem wraps_to_int32 : Wraps toInt32 where
  beyond x infinite := to_int32_of_infinite infinite
  whole x finite := by
    refine ⟨_, to_int32_of_finite finite, ?_⟩
    intro m
    exact (eq_of_int_iff m _).symm
  integer n := by
    constructor
    · obtain ⟨x, finite, equal⟩ := Double.exists_value_eq n
      exact ⟨x, by simpa [Double.isFinite] using finite, equal⟩
    · intro x finite equal
      rw [to_int32_of_finite finite, equal, toward_zero_int, Int32.ofInt_toInt]
  periodic x y whole times finiteX finiteY integral sum := by
    have shifted : y.value = ((whole + times * 2 ^ 32 : Int) : ℚ) := by
      rw [sum, integral]
      push_cast
      rfl
    rw [to_int32_of_finite finiteY, to_int32_of_finite finiteX, shifted, integral,
      toward_zero_int, toward_zero_int]
    exact congrArg Except.ok (Double.of_int_congr (by omega))
  opposite x := by
    refine ⟨x.value_opposite, ?_⟩
    by_cases infinite : x.exponentField = 2047
    · rw [to_int32_of_infinite infinite,
        to_int32_of_infinite (x.exponent_field_opposite.trans infinite)]
      rfl
    · have finite : x.opposite.exponentField ≠ 2047 := by
        rwa [x.exponent_field_opposite]
      rw [to_int32_of_finite infinite, to_int32_of_finite finite, x.value_opposite,
        toward_zero_neg, Int32.ofInt_neg]
      rfl

/-- The number `-4294967297.5` is beyond the integers of 32 bits. -/
example : (Value.float ⟨0xc1f0000000180000⟩).toInt32 = .ok (-1) := by decide +kernel

end Value

end ScriptSignal
