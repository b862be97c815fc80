import ScriptSignal.Reclaim

/-!
# Calls from script

A constructor is found by the name of its class. A method is found through the class
of the receiver, or through a class named by the caller, and then takes any receiver.
-/

namespace ScriptSignal

set_option autoImplicit false

namespace World

def call (world : World) (function : NativeFunction) (receiver : Value)
    (arguments : List Value) : Outcome :=
  match function with
  | .signal bridge entry => world.enterSignal bridge entry .script receiver arguments
  | .script body => (world, [.enter body receiver arguments .call])

def callFound (world : World) (function : Option NativeFunction) (missing : Exception)
    (receiver : Value) (arguments : List Value) : Outcome :=
  match function with
  | some function => world.call function receiver arguments
  | none => world.done (.raised missing)

def constructWithTarget (world : World) (className : String) (target : Value)
    (arguments : List Value) : Outcome :=
  world.callFound ((world.engine.registry.find? className).map ClassRecord.constructor)
    (.undefinedClass className) target arguments

def construct (world : World) (className : String) (arguments : List Value) : Outcome :=
  world.constructWithTarget className .undefined arguments

def method? (world : World) (classId : ClassId) (name : String) : Option NativeFunction :=
  (world.engine.registry.record? classId).bind fun record => record.methods.find? name

def callMethod (world : World) (receiver : Value) (name : String) (arguments : List Value) :
    Outcome :=
  world.callFound ((world.classOf? receiver).bind fun classId => world.method? classId name)
    (.notFunction name) receiver arguments

def callClassMethod (world : World) (className name : String) (receiver : Value)
    (arguments : List Value) : Outcome :=
  match world.engine.registry.idOf? className with
  | some classId =>
      world.callFound (world.method? classId name) (.notFunction name) receiver arguments
  | none => world.done (.raised (.undefinedClass className))

end World

end ScriptSignal
