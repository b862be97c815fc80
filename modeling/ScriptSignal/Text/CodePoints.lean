/-!
# Sets of code points

A set is a list of closed ranges, ascending and apart, so that a search may stop at the
first range that begins beyond what it looks for.
-/

namespace ScriptSignal.CodePoints

set_option autoImplicit false

abbrev Range := Nat × Nat

def contains : List Range → Nat → Bool
  | [], _ => false
  | (first, last) :: rest, point => first ≤ point && (point ≤ last || contains rest point)

end ScriptSignal.CodePoints
