/-!
# Settings of a bridge
-/

namespace ScriptSignal

set_option autoImplicit false

inductive DisconnectMode
  /-- Any number names the one slot, which is cleared. -/
  | clearSlot
  /-- Nothing is ever disconnected, and the receiver is not looked at. -/
  | alwaysFalse
deriving Repr, DecidableEq, Inhabited

def DisconnectMode.name : DisconnectMode → String
  | .clearSlot => "clear-slot"
  | .alwaysFalse => "always-false"

/-- Whether a Signal needs a link object before it may be connected. -/
inductive LinkPolicy
  | optional
  | required
deriving Repr, DecidableEq, Inhabited

def LinkPolicy.name : LinkPolicy → String
  | .optional => "Optional"
  | .required => "Required"

structure Config where
  disconnect : DisconnectMode := .clearSlot
  link : LinkPolicy := .optional
deriving Repr, DecidableEq, Inhabited

def Config.legacy : Config := { disconnect := .alwaysFalse }

end ScriptSignal
