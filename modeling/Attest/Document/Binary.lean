import Attest.Document.Cursor

/-!
# Bytes in documents

Bytes written with sixty-four characters, four characters for three bytes. Characters that are none
of these are passed over; an equals sign fills up the last group and ends the text with it.

* `decode?`: the bytes of a text, if its last group is complete.
-/

namespace Attest.Document.Binary

/-- The six bits that a character stands for. -/
def sextet? (c : Char) : Option Nat :=
  if 'A' ≤ c && c ≤ 'Z' then some (c.toNat - 65)
  else if 'a' ≤ c && c ≤ 'z' then some (c.toNat - 71)
  else if c.isDigit then some (c.toNat + 4)
  else if c == '+' then some 62
  else if c == '/' then some 63
  else none

/-- The bytes of what is left; `held` are the sextets of the group so far, and `fills` counts the
equals signs since the last of them. -/
def decodeFrom (held : List Nat) (fills : Nat) : List Char → Option (List UInt8)
  | [] => if held.isEmpty then some [] else none
  | c :: rest =>
    if c == '=' then
      if held.length ≥ 2 then
        if held.length + fills + 1 ≥ 4 then some [] else decodeFrom held (fills + 1) rest
      else decodeFrom held fills rest
    else
      match sextet? c, held with
      | none, _ => decodeFrom held fills rest
      | some n, [] => decodeFrom [n] 0 rest
      | some n, [a] => (decodeFrom [a, n] 0 rest).map (UInt8.ofNat (4 * a + n / 16) :: ·)
      | some n, [a, b] =>
        (decodeFrom [a, b, n] 0 rest).map (UInt8.ofNat (16 * (b % 16) + n / 4) :: ·)
      | some n, held => (decodeFrom [] 0 rest).map (UInt8.ofNat (64 * (held.getD 2 0 % 4) + n) :: ·)

/-- The bytes of a text. -/
def decode? (chars : List Char) : Option (List UInt8) :=
  if chars.all (·.toNat < 128) then decodeFrom [] 0 chars else none

end Attest.Document.Binary
