import Attest.Text.DigitTable
import Attest.Text.NameTable
import Attest.Text.PrintableTable
import Attest.Text.WordTable

/-!
# Classes of characters

Membership in the character classes that reading, printing and pattern matching share: blanks,
decimal digits, word characters and printable characters, each over all of Unicode.
-/

namespace Attest.Text

/-- Whether a code point lies in one of the closed ranges. -/
def inRanges (ranges : Array (Nat × Nat)) (code : Nat) : Bool :=
  ranges.any fun range => range.1 ≤ code && code ≤ range.2

/-- Whitespace: the bidirectional separators and the spaces, the four ASCII separators included. -/
def isBlank (c : Char) : Bool :=
  let n := c.toNat
  (9 ≤ n && n ≤ 13) || (28 ≤ n && n ≤ 32) || n == 0x85 || n == 0xa0 || n == 0x1680 ||
    (0x2000 ≤ n && n ≤ 0x200a) || n == 0x2028 || n == 0x2029 || n == 0x202f || n == 0x205f ||
    n == 0x3000

/-- The value of a decimal digit of any script. -/
def digitValue? (c : Char) : Option Nat :=
  let n := c.toNat
  if 48 ≤ n ∧ n ≤ 57 then some (n - 48)
  else if n < 128 then none
  else (digitZeros.find? fun start => start ≤ n && n ≤ start + 9).map (n - ·)

/-- A decimal digit of any script. -/
def isDigit (c : Char) : Bool := (digitValue? c).isSome

/-- A letter or a number of any script. -/
def isAlphanumeric (c : Char) : Bool := inRanges alphanumericRanges c.toNat

/-- A character that can stand in a word: a letter, a number or the underscore. -/
def isWord (c : Char) : Bool := c == '_' || isAlphanumeric c

/-- A character that a name can begin with. -/
def beginsName (c : Char) : Bool :=
  let n := c.toNat
  c == '_' || (isAlphanumeric c && !isDigit c && !inRanges lateOnlyRanges n) ||
    inRanges earlyOnlyRanges n

/-- A character that a name can go on with. -/
def continuesName (c : Char) : Bool :=
  let n := c.toNat
  (isWord c && !inRanges wordOnlyRanges n) || inRanges nameOnlyRanges n

/-- Whether a text is a name. -/
def isName (s : String) : Bool :=
  match s.toList with
  | c :: rest => beginsName c && rest.all continuesName
  | [] => false

/-- A character that quoted text shows as itself. -/
def isPrintable (c : Char) : Bool := inRanges printableRanges c.toNat

/-- Drops the blanks at both ends. -/
def trimChars (s : List Char) : List Char :=
  ((s.dropWhile isBlank).reverse.dropWhile isBlank).reverse

/-- Drops the blanks at both ends. -/
def trim (s : String) : String := String.ofList (trimChars s.toList)

end Attest.Text
