/-!
# Double-precision numbers by their bits

A number is its 64 bits: a sign, eleven bits of exponent and 52 of fraction. What is
said of a number here is said of these fields, as integers.
-/

namespace ScriptSignal

set_option autoImplicit false

structure Double where
  bits : UInt64
deriving Repr, DecidableEq, Inhabited

namespace Double

def hiddenBit : Nat := 0x10000000000000

def negative (x : Double) : Bool := x.bits.toNat >>> 63 = 1

def exponentField (x : Double) : Nat := (x.bits.toNat >>> 52) % 2048

def fraction (x : Double) : Nat := x.bits.toNat % hiddenBit

/-- An exponent with all bits set is an infinity or no number at all. -/
def isFinite (x : Double) : Bool := x.exponentField ≠ 2047

def isNaN (x : Double) : Bool := x.exponentField = 2047 ∧ x.fraction ≠ 0

def isZero (x : Double) : Bool := x.exponentField = 0 ∧ x.fraction = 0

/-- The magnitude in units of `2 ^ (exponent - 1075)`. Numbers with an empty
exponent field have no hidden bit. -/
def significand (x : Double) : Nat :=
  if x.exponentField = 0 then x.fraction else hiddenBit + x.fraction

/-- An empty exponent field stands for the same power as the field one. -/
def exponent (x : Double) : Nat := max x.exponentField 1

/-- Numeric equality: no NaN equals anything, and the two zeros are one number. -/
def same (x y : Double) : Bool :=
  !x.isNaN && !y.isNaN && (x = y || (x.isZero && y.isZero))

end Double

end ScriptSignal
