import ScriptSignal.Script.Command

/-!
# Scripts

A step is a command with the register that keeps its answer, or one of the two
forms that hold further steps: the definition of a class whose native functions
are written as bodies, and a repetition. Every step has a label, under which the
transcript lists it.
-/

namespace ScriptSignal

set_option autoImplicit false

mutual

inductive Step
  | act (label : String) (command : Command) (keep : Option String)
  | define (label : String) (classId : ClassId) (name : String) (constructor : Body)
      (methods : List (String × Body)) (finalizer : Body)
  | iterate (label : String) (times : Nat) (steps : List Step)
  | unknown (label : String)

/-- The steps of a native function and what it ends in: the exception, if there is
one, and otherwise the returned operand. -/
inductive Body
  | mk (steps : List Step) (returned : Operand) (thrown : Option Exception)

end

namespace Body

def steps : Body → List Step
  | mk steps _ _ => steps

def returned : Body → Operand
  | mk _ returned _ => returned

def thrown : Body → Option Exception
  | mk _ _ thrown => thrown

end Body

instance : Inhabited Body := ⟨.mk [] (.literal .undefined) none⟩

instance : Inhabited Step := ⟨.unknown ""⟩

end ScriptSignal
