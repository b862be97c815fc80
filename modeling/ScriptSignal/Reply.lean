import ScriptSignal.Signal

/-!
# Answers to commands
-/

namespace ScriptSignal

set_option autoImplicit false

inductive Refusal
  | noReference
  | noState
  | noBridge
  | noEngine
  | badStep
deriving Repr, DecidableEq

inductive Reply
  | nothing
  /-- A value that a register may keep. -/
  | value (value : Value)
  /-- A look at what native code holds, which no register keeps. -/
  | held (value : Option Value)
  | raised (exception : Exception)
  | failed (failure : Failure)
  | refused (refusal : Refusal)
  | number (number : Option Int)
  | flag (truth : Bool)
  | text (text : Option String)
  | key (key : Option Key)
  | inspected (value : Value)
  | kinds (isUndefined isObject isFunction isNumber : Bool)
  | liveness (refCount : Option Nat)
  | bridge (bridge : Bridge)
  | state (state : SignalState)
deriving Repr, DecidableEq

instance : Inhabited Reply := ⟨.nothing⟩

/-- How an entry point was reached. Script sees a failure as an exception. -/
inductive Route
  | direct
  | script
deriving Repr, DecidableEq

def Route.reply : Route → Except Failure Value → Reply
  | _, .ok value => .value value
  | .direct, .error failure => .failed failure
  | .script, .error failure => .raised failure.toException

end ScriptSignal
