import Attest.Number.Shortest
import Attest.Text.Class

/-!
# Numbers as text

The written forms of integers and floats, and the numerals that are read back. A float is written
with the fewest digits, positionally from a ten-thousandth up to ten to the sixteenth. Numerals may
hold blanks at the ends, digits of any script, and single underscores between digits.

* `digitLimit`: the number of digits beyond which integers are neither written nor read.
-/

namespace Attest.Number

/-- Integers of more digits than this have no decimal text. -/
def digitLimit : Nat := 4300

/-- The digits of a natural number. -/
def natText (n : Nat) : String := String.ofList (Nat.toDigits 10 n)

/-- An integer in decimal, whatever its size. -/
def intText (n : Int) : String :=
  if n < 0 then "-" ++ natText n.natAbs else natText n.natAbs

/-- An integer in decimal, unless it has too many digits. -/
def intText? (n : Int) : Option String :=
  if n.natAbs < Nat.pow 10 digitLimit then some (intText n) else none

/-! ## Floats -/

/-- The digits of a decimal, each once, as text. -/
def Decimal.text (d : Decimal) : List Char :=
  let digits := Nat.toDigits 10 d.digits
  List.replicate (d.count - digits.length) '0' ++ digits

/-- Drops the zeros that end a list of digits. -/
def dropTrailingZeros (digits : List Char) : List Char :=
  (digits.reverse.dropWhile (· == '0')).reverse

/-- Positional notation: at least one digit on either side of the point. -/
def positional (digits : List Char) (point : Int) : List Char :=
  match point with
  | .ofNat 0 => '0' :: '.' :: digits
  | .ofNat (p + 1) =>
    let whole := digits.take (p + 1)
    let fraction := digits.drop (p + 1)
    whole ++ List.replicate (p + 1 - whole.length) '0' ++
      '.' :: (if fraction.isEmpty then ['0'] else fraction)
  | .negSucc p => '0' :: '.' :: List.replicate (p + 1) '0' ++ digits

/-- Scientific notation: one digit before the point, an exponent of at least two digits. -/
def scientific (digits : List Char) (point : Int) : List Char :=
  let e := point - 1
  let exponent := Nat.toDigits 10 e.natAbs
  let mantissa := match digits with
    | [] => ['0']
    | [d] => [d]
    | d :: rest => d :: '.' :: rest
  mantissa ++ 'e' :: (if e < 0 then '-' else '+') ::
    (if exponent.length < 2 then '0' :: exponent else exponent)

/-- The text of a positive finite float. -/
def positiveText (x : Float) : List Char :=
  let d := shortest x
  let digits := dropTrailingZeros d.text
  if -4 < d.point ∧ d.point ≤ 16 then positional digits d.point else scientific digits d.point

/-- The text of a float; the undefined value has no sign. -/
def floatText (x : Float) : String :=
  if isNan x then "nan"
  else
    let sign := if isNegative x then "-" else ""
    if isInfinite x then sign ++ "inf"
    else if mantissa x == 0 then sign ++ "0.0"
    else sign ++ String.ofList (positiveText (if isNegative x then -x else x))

/-! ## Reading numerals -/

/-- Why a text is no integer. -/
inductive IntTrouble where
  | malformed
  | tooLong (digits : Nat)
  deriving DecidableEq, Repr

/-- The ASCII form of a text for reading: digits of every script become ASCII digits, and blanks
outside ASCII become spaces. -/
def plainChars (s : List Char) : List Char :=
  s.map fun c =>
    if c.toNat < 128 then c
    else if Text.isBlank c then ' '
    else match Text.digitValue? c with
      | some d => Nat.digitChar d
      | none => '?'

/-- Spaces that may surround a numeral. -/
def isPad (c : Char) : Bool := c == ' ' || (9 ≤ c.toNat && c.toNat ≤ 13)

/-- The characters between the surrounding spaces. -/
def unpad (s : List Char) : List Char :=
  ((s.dropWhile isPad).reverse.dropWhile isPad).reverse

/-- Splits off a sign; `true` is minus. -/
def takeSign : List Char → Bool × List Char
  | '-' :: rest => (true, rest)
  | '+' :: rest => (false, rest)
  | rest => (false, rest)

/-- Removes underscores that stand between two digits; `none` when one stands elsewhere. -/
def dropUnderscores (previous : Char) : List Char → Option (List Char)
  | [] => if previous == '_' then none else some []
  | '_' :: rest => if previous.isDigit then dropUnderscores '_' rest else none
  | c :: rest =>
    if previous == '_' && !c.isDigit then none else (dropUnderscores c rest).map (c :: ·)

/-- The number that a list of ASCII digits denotes. -/
def digitsValue (digits : List Char) : Nat :=
  digits.foldl (fun n d => 10 * n + (d.toNat - 48)) 0

/-- Reads an integer numeral. Its digits are counted before what follows them is looked at. -/
def readInt (s : String) : Except IntTrouble Int :=
  let (negative, body) := takeSign (unpad (plainChars s.toList))
  let isPart (c : Char) : Bool := c.isDigit || c == '_'
  match dropUnderscores ' ' (body.takeWhile isPart) with
  | none => .error .malformed
  | some digits =>
    if digits.isEmpty then .error .malformed
    else if digits.length > digitLimit then .error (.tooLong digits.length)
    else if !(body.dropWhile isPart).isEmpty then .error .malformed
    else .ok (if negative then -(digitsValue digits : Int) else digitsValue digits)

/-- The value of a digit, letters counting on from ten. -/
def digitIn (c : Char) : Nat :=
  if c.isDigit then c.toNat - 48 else if c.isAlpha then c.toLower.toNat - 87 else 36

/-- The letter that may stand behind a zero in front of digits of a base. -/
def baseLetter (base : Nat) : Option Char := [(2, 'b'), (8, 'o'), (16, 'x')].lookup base

/-- Reads an integer numeral without underscores in a base, which its first characters may name. -/
def readIn (base : Nat) (s : List Char) : Option Int :=
  let (negative, body) := takeSign (unpad (plainChars s))
  let digits := match body with
    | '0' :: c :: rest => if baseLetter base == some c.toLower then rest else body
    | _ => body
  if digits.isEmpty || !digits.all (fun c => digitIn c < base) then none
  else
    let n : Int := digits.foldl (fun n d => base * n + digitIn d) 0
    some (if negative then -n else n)

/-- The float next to `digits * 10 ^ exponent`. -/
def ofDecimal (negative : Bool) (digits : Nat) (exponent : Int) : Float :=
  if digits == 0 then ofNatRatio negative 0 1
  else
    -- far outside the range of floats the answer needs no arithmetic
    let size : Int := (Nat.log2 digits : Int) * 30103 / 100000 + exponent
    if size > 400 then infinity negative
    else if size < -400 then ofNatRatio negative 0 1
    else match exponent with
      | .ofNat e => ofNatRatio negative (digits * Nat.pow 10 e) 1
      | .negSucc e => ofNatRatio negative digits (Nat.pow 10 (e + 1))

/-- Reads an exponent: digits with an optional sign, and nothing else. -/
def readExponent (s : List Char) : Option Int :=
  let (negative, digits) := takeSign s
  if digits.isEmpty || !digits.all Char.isDigit then none
  else
    let n : Int := digitsValue digits
    some (if negative then -n else n)

/-- Reads an unsigned decimal with an optional fraction and exponent. -/
def readDecimal (negative : Bool) (s : List Char) : Option Float :=
  let whole := s.takeWhile Char.isDigit
  let rest := s.dropWhile Char.isDigit
  let (fraction, rest) := match rest with
    | '.' :: more => (more.takeWhile Char.isDigit, more.dropWhile Char.isDigit)
    | _ => ([], rest)
  if whole.isEmpty && fraction.isEmpty then none
  else
    let exponent? : Option Int := match rest with
      | [] => some 0
      | c :: more => if c == 'e' || c == 'E' then readExponent more else none
    exponent?.map fun e =>
      ofDecimal negative (digitsValue (whole ++ fraction)) (e - (fraction.length : Int))

/-- Reads a float numeral, the names of the infinities and of the undefined value included. -/
def readFloat (s : String) : Option Float :=
  match dropUnderscores ' ' (unpad (plainChars s.toList)) with
  | none => none
  | some chars =>
    let (negative, body) := takeSign chars
    match String.ofList (body.map Char.toLower) with
    | "inf" | "infinity" => some (infinity negative)
    | "nan" => some nan
    | _ => readDecimal negative body

end Attest.Number
