/-!
# Failures and exceptions

A native entry point ends in a `Failure`, which keeps its cause. Script sees it
as an `Exception`: a class and a message. The failures that this library itself
raises are named at the end, each with its wording.
-/

namespace ScriptSignal

set_option autoImplicit false

inductive ErrorClass
  | range
  | type
  | internal
deriving Repr, DecidableEq, Inhabited

def ErrorClass.name : ErrorClass → String
  | .range => "RangeError"
  | .type => "TypeError"
  | .internal => "InternalError"

inductive Failure
  /-- A wrong number of arguments. -/
  | arity (message : String)
  /-- An argument of the wrong kind. -/
  | argumentType (message : String)
  /-- The operation is not valid in the current state. -/
  | state (message : String)
  /-- Native state or a class is missing. -/
  | internal (message : String)
  /-- The engine itself reported a failure. -/
  | host (errorClass : ErrorClass) (message : String)
deriving Repr, DecidableEq, Inhabited

structure Exception where
  errorClass : ErrorClass
  message : String
deriving Repr, DecidableEq, Inhabited

def Exception.text (exception : Exception) : String :=
  exception.errorClass.name ++ ": " ++ exception.message

namespace Failure

def errorClass : Failure → ErrorClass
  | .arity _ | .state _ => .range
  | .argumentType _ => .type
  | .internal _ => .internal
  | .host errorClass _ => errorClass

def message : Failure → String
  | .arity message | .argumentType message | .state message | .internal message
  | .host _ message => message

/-- Only what the engine reported is shown with its class. -/
def text : Failure → String
  | .host errorClass message => errorClass.name ++ ": " ++ message
  | failure => failure.message

def toException (failure : Failure) : Exception := ⟨failure.errorClass, failure.message⟩

def argumentCount : Failure := .arity "Unsupported number of arguments"

def functionExpected : Failure := .arity "Expected one argument of function type"

def argumentKind : Failure := .argumentType "Unsupported argument type"

def linkNotObject : Failure := .argumentType "Signal link must be an object"

def noContext : Failure := .internal "Could not find signal context"

def alreadyConnected : Failure := .state "Signal already contains a connected function"

def noLink : Failure := .state "Signal has no link object"

def unknownClass : Failure := .internal "unknown class id"

def classDefined : Failure := .state "class already defined"

def notNumber : Failure := .host .type "cannot convert value to int32"

def unreadable (key : String) : Failure :=
  .host .type ("cannot read property '" ++ key ++ "' of non-object")

end Failure

namespace Exception

def unwritable : Exception := ⟨.type, "cannot set property of non-object"⟩

def objectFreed : Exception := ⟨.type, "object has been freed"⟩

def undefinedClass (name : String) : Exception := ⟨.type, name ++ " is not defined"⟩

def notFunction (name : String) : Exception := ⟨.type, name ++ " is not a function"⟩

end Exception

end ScriptSignal
