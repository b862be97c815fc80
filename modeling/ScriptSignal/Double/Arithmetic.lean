import ScriptSignal.Double

/-!
# Arithmetic on doubles

Every finite number is a whole multiple of the smallest positive one, `2 ^ -1074`, which is the unit
here. An operation is done exactly on units, and its result is rounded to the nearest number; of two
that are equally near, the one with the even significand is taken.
-/

namespace ScriptSignal.Double

set_option autoImplicit false

def unitPlaces : Nat := 1074

def one : Nat := 1 <<< unitPlaces

/-- The magnitude of a finite number in units. -/
def units (x : Double) : Nat := x.significand <<< (x.exponent - 1)

def signedUnits (x : Double) : Int := if x.negative then -(x.units : Int) else x.units

def ofMagnitude (negative : Bool) (magnitude : Nat) : Double :=
  ⟨UInt64.ofNat (if negative then (1 <<< 63) + magnitude else magnitude)⟩

/-- The number that is nearest to so many units. Its significand is what is left of them when all
but 53 bits are dropped, and carries into the exponent. Beyond the largest number is infinity. -/
def ofUnits (negative : Bool) (units : Nat) : Double :=
  let dropped := units.log2 - 52
  let kept := units >>> dropped
  let rest := units % (1 <<< dropped)
  let up := 1 <<< dropped < 2 * rest ∨ 1 <<< dropped = 2 * rest ∧ kept % 2 = 1
  let magnitude := dropped * hiddenBit + if up then kept + 1 else kept
  ofMagnitude negative (min magnitude (2047 * hiddenBit))

def truncated (x : Double) : Double := ofUnits x.negative (x.units / one * one)

/-- What a finite number leaves when it is divided by another as often as it goes. It has the sign
of the dividend. -/
def remainder (x y : Double) : Double := ofUnits x.negative (x.units % y.units)

/-- The sum of finite numbers. Where it is zero, it is negative only if both are. -/
def add (x y : Double) : Double :=
  let sum := x.signedUnits + y.signedUnits
  ofUnits (if sum = 0 then x.negative && y.negative else sum < 0) sum.natAbs

def magnitude (x : Double) : Double := ⟨x.bits &&& 0x7fffffffffffffff⟩

def euclideanRemainder (x y : Double) : Double :=
  let rest := x.remainder y
  if rest.negative && !rest.isZero then rest.add y.magnitude else rest

/-- The whole part as a number of 32 bits, and the nearest such number if it is none. -/
def toUInt32 (x : Double) : UInt32 :=
  if x.isNaN || x.negative then 0 else UInt32.ofNat (min (x.units / one) ((1 <<< 32) - 1))

def wordSize : Double := ⟨0x41f0000000000000⟩

/-- The 32-bit integer of a number: what is finite is truncated and wraps, and the rest is zero. -/
def toInt32 (x : Double) : Int32 :=
  if x.isFinite then (x.truncated.euclideanRemainder wordSize).toUInt32.toInt32 else 0

end ScriptSignal.Double
