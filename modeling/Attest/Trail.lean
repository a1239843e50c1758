import Attest.Value.Format

/-!
# Trails

Where in a value something is: the keys and indices that lead to it. A trail is written as names
joined by dots, with indices in brackets.
-/

namespace Attest

/-- Keys and indices from the outside to the inside. -/
abbrev Trail := List Value

namespace Trail

/-- An index: a whole number, truth values included. -/
def isIndex : Value → Bool
  | .int _ | .bool _ => true
  | _ => false

/-- The written trail after one more segment. The dot stands only behind text that is not empty. -/
def extend (written : String) (segment : Value) : Except Fault String := do
  let text ← segment.plain
  if isIndex segment then return written ++ "[" ++ text ++ "]"
  else if written.isEmpty then return text
  else return written ++ "." ++ text

/-- A trail as text. -/
def text (trail : Trail) : Except Fault String := trail.foldlM extend ""

end Trail

end Attest
