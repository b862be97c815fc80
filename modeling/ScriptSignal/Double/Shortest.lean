import ScriptSignal.Double

/-!
# The shortest decimal of a double

Among the decimals that read back as a number, those with the fewest digits are
considered, and of these the one nearest to the number; of two equally near the
larger one. Everything is decided by exact comparison of natural numbers.
-/

namespace ScriptSignal.Double

set_option autoImplicit false

/-- The value `digits * 10 ^ power`. -/
structure Decimal where
  digits : Nat
  power : Int
deriving Repr, DecidableEq

/-- The magnitude of a finite number and the ends of the interval of reals that
round to it, all three over one denominator. The ends belong to the interval
when the significand is even. -/
structure Rounding where
  low : Nat
  value : Nat
  high : Nat
  denominator : Nat
  closed : Bool
deriving Repr

/-- The next smaller number is only half as far away where the power of two changes. -/
def rounding (x : Double) : Rounding :=
  let below := if x.fraction = 0 ∧ 1 < x.exponentField then 1 else 2
  let scale := x.exponent - 1077
  { low := (4 * x.significand - below) <<< scale
    value := (4 * x.significand) <<< scale
    high := (4 * x.significand + 2) <<< scale
    denominator := 1 <<< (1077 - x.exponent)
    closed := x.significand % 2 = 0 }

namespace Rounding

/-- The part of a power of ten that multiplies; a negative power has none. -/
def tenTo (power : Int) : Nat := Nat.pow 10 power.toNat

def compareWith (r : Rounding) (decimal : Decimal) (numerator : Nat) : Ordering :=
  compare (decimal.digits * tenTo decimal.power * r.denominator)
    (numerator * tenTo (-decimal.power))

def contains (r : Rounding) (decimal : Decimal) : Bool :=
  let fromLow := r.compareWith decimal r.low
  let fromHigh := r.compareWith decimal r.high
  if r.closed then fromLow.isGE && fromHigh.isLE else fromLow.isGT && fromHigh.isLT

def leadingPower (r : Rounding) : Int :=
  let guess : Int := (toString r.value).length - (toString r.denominator).length
  if (r.compareWith ⟨1, guess⟩ r.value).isLE then guess else guess - 1

/-- The best decimal on the grid `10 ^ power`, if that grid has a hit. -/
def onGrid (r : Rounding) (power : Int) : Option Decimal :=
  let scaled := r.value * tenTo (-power)
  let step := r.denominator * tenTo power
  let below : Decimal := ⟨scaled / step, power⟩
  let above : Decimal := ⟨scaled / step + 1, power⟩
  match r.contains below, r.contains above with
  | true, true => some (if 2 * (scaled % step) < step then below else above)
  | true, false => some below
  | false, true => some above
  | false, false => none

/-- Seventeen digits always suffice. -/
def shortest (r : Rounding) : Decimal :=
  let leading := r.leadingPower
  ((List.range 17).findSome? fun (count : Nat) => r.onGrid (leading - count)).getD ⟨0, 0⟩

end Rounding

def zeros (count : Nat) : String := String.ofList (List.replicate count '0')

/-- Positional when the leading digit stands between the fourth decimal and the
sixteenth whole place, and otherwise with an exponent. -/
def Decimal.text (decimal : Decimal) : String :=
  let written := (toString decimal.digits).toList
  let kept := (written.reverse.dropWhile (· = '0')).reverse
  let leading : Int := decimal.power + written.length - 1
  if leading < -4 ∨ 15 < leading then
    let tail := if kept.length ≤ 1 then "" else "." ++ String.ofList (kept.drop 1)
    String.ofList (kept.take 1) ++ tail ++ "e" ++ toString leading
  else if leading < 0 then
    "0." ++ zeros (-leading - 1).toNat ++ String.ofList kept
  else
    let whole := leading.toNat + 1
    let decimals := if kept.length ≤ whole then "0" else String.ofList (kept.drop whole)
    String.ofList (kept.take whole) ++ zeros (whole - kept.length) ++ "." ++ decimals

/-- The text of a number. It always shows that the number is no integer value. -/
def text (x : Double) : String :=
  let sign := if x.negative then "-" else ""
  if x.isNaN then "NaN"
  else if !x.isFinite then sign ++ "inf"
  else if x.isZero then sign ++ "0.0"
  else sign ++ x.rounding.shortest.text

end ScriptSignal.Double
