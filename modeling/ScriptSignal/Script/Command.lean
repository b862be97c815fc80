import ScriptSignal.Config
import ScriptSignal.Slab
import ScriptSignal.Value

/-!
# What a client can ask for

Every request is one command, and the commands come in families by what they are
about. Values are given as operands, which are read when the command is carried
out. A command says nothing about where its answer goes.
-/

namespace ScriptSignal

set_option autoImplicit false

inductive Operand
  | literal (value : Value)
  | register (name : String)
  /-- The receiver of the running body. -/
  | self
  | argument (index : Nat)
  | argumentCount
deriving Repr, DecidableEq

instance : Inhabited Operand := ⟨.literal .undefined⟩

inductive ValueCommand
  | read (value : Operand)
  | forget (register : String)
  | same (left right : Operand)
  | inspect (value : Operand)

inductive ObjectCommand
  | create
  | createFunction (name : String)
  | setProperty (object : Operand) (key : String) (value : Operand)
  | getProperty (object : Operand) (key : String)
  | prototype (value : Operand)
  | functionName (value : Operand)
  | classOf (value : Operand)
  | duplicate (value : Operand)
  | release (value : Operand)
  | alive (value : Operand)
  | collect
  | finalizeNow (value : Operand)
  | setSlot (value : Operand) (classId : ClassId) (key : Option Key)
  | getSlot (value : Operand) (classId : ClassId)
  | kind (value : Operand)
  | toInt32 (value : Operand)
  | make (value : Value)
  | throw (failure : Failure)

inductive ClassCommand
  | find (name : String)
  | reserve
  | prototype (classId : ClassId)
  | instantiate (proto : Operand) (classId : ClassId)
  | construct (name : String) (target : Option Operand) (arguments : List Operand)
  | callMethod (receiver : Operand) (name : String) (arguments : List Operand)
  | callClassMethod (className name : String) (receiver : Operand) (arguments : List Operand)

/-- The entry points of a Signal that give a value. -/
inductive Entry
  | construct
  | connect
  | disconnect
  | isEmpty
  | toString
deriving Repr, DecidableEq

inductive BridgeCommand
  | install (name : String) (config : Config)
  | create (name : String) (classId : ClassId) (config : Config)
  | drop (name : String)
  | describe (name : String)
  | enter (name : String) (entry : Entry) (receiver : Operand) (arguments : List Operand)
  | finalize (name : String) (handle : Operand)
  | isBound (name : String) (handle : Operand)

inductive ReferenceCommand
  | acquire (name : String) (value : Operand)
  | read (name : String)
  | describe (name : String)
  | drop (name : String)

inductive StateCommand
  | create (name : String) (link : Option String)
  | setCallback (name : String) (callback : Operand)
  | clear (name : String) (keep : Option String)
  | describe (name : String)
  | drop (name : String)

inductive Command
  | value (command : ValueCommand)
  | object (command : ObjectCommand)
  | classes (command : ClassCommand)
  | bridge (command : BridgeCommand)
  | reference (command : ReferenceCommand)
  | state (command : StateCommand)
  /-- Tear the engine down. -/
  | shutDown

def Command.needsEngine : Command → Bool
  | .value _ | .shutDown => false
  | .object _ | .classes _ => true
  | .bridge (.drop _) | .bridge (.describe _) => false
  | .bridge _ => true
  | .reference (.acquire _ _) => true
  | .reference _ => false
  | .state (.setCallback _ _) => true
  | .state _ => false

end ScriptSignal
