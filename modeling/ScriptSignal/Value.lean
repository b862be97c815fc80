import ScriptSignal.Double.Arithmetic
import ScriptSignal.Error

/-!
# Script values

A value is a handle: copying one takes no part in reference counting. Objects are
named by the order in which they were allocated, and no name is used twice.
-/

namespace ScriptSignal

set_option autoImplicit false

/-- The zero-based place of an object among all allocations. It is shown counted
from one. -/
structure ObjectId where
  index : Nat
deriving Repr, DecidableEq, Inhabited

def ObjectId.label (id : ObjectId) : String := "#" ++ toString (id.index + 1)

structure ClassId where
  number : UInt32
deriving Repr, DecidableEq, Inhabited

def ClassId.label (id : ClassId) : String := "class#" ++ toString id.number.toNat

inductive Value
  | undefined
  | null
  | bool (truth : Bool)
  | int (number : Int32)
  | float (number : Double)
  | string (text : String)
  | object (id : ObjectId)
deriving Repr, DecidableEq, Inhabited

namespace Value

def object? : Value → Option ObjectId
  | .object id => some id
  | _ => none

def bool? : Value → Option Bool
  | .bool truth => some truth
  | _ => none

def int? : Value → Option Int32
  | .int number => some number
  | _ => none

def string? : Value → Option String
  | .string text => some text
  | _ => none

def isUndefined : Value → Bool
  | .undefined => true
  | _ => false

def isObject : Value → Bool
  | .object _ => true
  | _ => false

def isNumber : Value → Bool
  | .int _ | .float _ => true
  | _ => false

/-- Equality of values: kinds are never mixed, floats compare as numbers, strings
by content and objects by identity. -/
def same : Value → Value → Bool
  | .float x, .float y => x.same y
  | left, right => left = right

def toInt32 : Value → Except Failure Int32
  | .int number => .ok number
  | .float number => .ok number.toInt32
  | _ => .error .notNumber

end Value

end ScriptSignal
