import ScriptSignal.Text.Extending
import ScriptSignal.Text.Unprintable

/-!
# Quoted text

Text in double quotes shows each character as it is where a reader can tell it apart.
What has no form of its own, or joins the character before it, is written as its code
point.
-/

namespace ScriptSignal.Quoted

set_option autoImplicit false

/-- Letters that fill the place of a letter and print nothing. -/
def fillers : List CodePoints.Range := [(0x115f, 0x1160), (0x3164, 0x3164), (0xffa0, 0xffa0)]

def isEscaped (c : Char) : Bool :=
  CodePoints.contains CodePoints.unprintable c.toNat
    || CodePoints.contains CodePoints.extending c.toNat
    || CodePoints.contains fillers c.toNat

def escape (c : Char) : String :=
  "\\u\x7b" ++ String.ofList (Nat.toDigits 16 c.toNat) ++ "\x7d"

def encodeChar (c : Char) : String :=
  match c with
  | '"' => "\\\""
  | '\\' => "\\\\"
  | '\n' => "\\n"
  | '\r' => "\\r"
  | '\t' => "\\t"
  | '\x00' => "\\0"
  | c => if isEscaped c then escape c else String.singleton c

def encode (text : String) : String :=
  "\"" ++ String.join (text.toList.map encodeChar) ++ "\""

end ScriptSignal.Quoted
