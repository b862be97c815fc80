import ScriptSignal.Double.Shortest
import ScriptSignal.Text.Quoted
import ScriptSignal.Value

/-!
# Values as diagnostics show them

Kinds are spelled out, strings are quoted, and an object is shown by its number.
-/

namespace ScriptSignal

set_option autoImplicit false

def Value.text : Value → String
  | .undefined => "Undefined"
  | .null => "Null"
  | .bool truth => "Bool(" ++ toString truth ++ ")"
  | .int number => "Int(" ++ toString number.toInt ++ ")"
  | .float number => "Float(" ++ number.text ++ ")"
  | .string text => "String(" ++ Quoted.encode text ++ ")"
  | .object id => "Object(ObjectId(" ++ toString (id.index + 1) ++ "))"

def optionText (shown : Option String) : String :=
  match shown with
  | some text => "Some(" ++ text ++ ")"
  | none => "None"

end ScriptSignal
