import Attest.Value.Shown

/-!
# Compact records

A map as one line of JSON: no blanks, non-ASCII characters as escapes, tuples as arrays, and
whatever JSON does not know by its plain text. There is none for a map with other keys than texts,
numbers, truth values and null, for a cyclic one, or for one with a number that has no text.
-/

namespace Attest.Value

open Text (hexDigits)

/-- An escape of four hexadecimal digits. -/
def unitEscape (unit : Nat) : List Char := '\\' :: 'u' :: hexDigits 4 unit

/-- How one character is written inside a JSON string. -/
def compactChar (c : Char) : List Char :=
  let n := c.toNat
  if c == '"' || c == '\\' then ['\\', c]
  else if c == '\n' then ['\\', 'n']
  else if c == '\r' then ['\\', 'r']
  else if c == '\t' then ['\\', 't']
  else if n == 8 then ['\\', 'b']
  else if n == 12 then ['\\', 'f']
  else if 0x20 ≤ n && n < 0x7f then [c]
  else if n < 0x10000 then unitEscape n
  else
    let m := n - 0x10000
    unitEscape (0xd800 + m / 0x400) ++ unitEscape (0xdc00 + m % 0x400)

/-- A JSON string. -/
def compactText (s : String) : String :=
  String.ofList ('"' :: s.toList.flatMap compactChar ++ ['"'])

/-- A float as a JSON number, or as one of the three names. -/
def compactFloat (x : Float) : String :=
  if Number.isNan x then "NaN"
  else if Number.isInfinite x then (if Number.isNegative x then "-Infinity" else "Infinity")
  else Number.floatText x

/-- The name of a member, for the keys that can be one. -/
def compactKey : Value → Option String
  | .text s => some s
  | .mode m => some m.name
  | .int n => Number.intText? n
  | .float x => some (compactFloat x)
  | .nan _ => some (compactFloat Number.nan)
  | .bool b => some (if b then "true" else "false")
  | .null => some "null"
  | _ => none

mutual

/-- The compact text of a value. -/
def compact? : Value → Option String
  | .null => some "null"
  | .bool b => some (if b then "true" else "false")
  | .int n => Number.intText? n
  | .float x => some (compactFloat x)
  | .nan _ => some (compactFloat Number.nan)
  | .text s => some (compactText s)
  | .mode m => some (compactText m.name)
  | .list items | .tuple items => do
    return "[" ++ String.intercalate "," (← compactAll? items) ++ "]"
  | .map entries => do
    return "\x7b" ++ String.intercalate "," (← compactEntries? entries) ++ "\x7d"
  | .up _ => none
  | v => (plain v).toOption.map compactText

def compactAll? : List Value → Option (List String)
  | [] => some []
  | v :: rest => do
    let first ← compact? v
    return first :: (← compactAll? rest)

def compactEntries? : List (Value × Value) → Option (List String)
  | [] => some []
  | (k, v) :: rest => do
    let key ← compactKey k
    let value ← compact? v
    return (compactText key ++ ":" ++ value) :: (← compactEntries? rest)

end

end Attest.Value
