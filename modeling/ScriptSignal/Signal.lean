import ScriptSignal.Config
import ScriptSignal.Slab
import ScriptSignal.Value.Text

/-!
# Signals

A Signal is a connection point for one callback. Its native half is a state in
the table of a bridge, and its script half an instance of the bridge's class whose
slot holds the key of the state.
-/

namespace ScriptSignal

set_option autoImplicit false

structure StrongRef where
  value : Value
deriving Repr, DecidableEq

def StrongRef.text (held : StrongRef) : String :=
  "StrongRef \x7b value: " ++ optionText (some held.value.text) ++ " \x7d"

/-- The native half of a Signal. -/
structure SignalState where
  callback : Option StrongRef
  link : Option StrongRef
deriving Repr, DecidableEq

namespace SignalState

/-- The references of a state in the order in which they are given back. -/
def held (state : SignalState) : List StrongRef := state.callback.toList ++ state.link.toList

def connected (state : SignalState) (callback : Value) : SignalState :=
  { state with callback := some ⟨callback⟩ }

def cleared (state : SignalState) : SignalState := { state with callback := none }

def text (state : SignalState) : String :=
  "NativeState \x7b callback: " ++ optionText (state.callback.map StrongRef.text)
    ++ ", link: " ++ optionText (state.link.map StrongRef.text) ++ " \x7d"

end SignalState

structure BridgeId where
  index : Nat
deriving Repr, DecidableEq, Inhabited

/-- The table of the states of one class of Signals. -/
structure Bridge where
  classId : ClassId
  config : Config
  states : Slab SignalState
  /-- The functions of the class refer to the bridge. -/
  installed : Bool
  /-- How many direct calls are under way. -/
  active : Nat
deriving Repr, DecidableEq

def signalClassName : String := "Signal"

/-- What `connect` returns: the number of the one slot. -/
def connectionToken : Int32 := 0

end ScriptSignal
