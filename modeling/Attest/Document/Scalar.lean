import Attest.Calendar.Moment
import Attest.Document.Binary
import Attest.Document.Tag
import Attest.Pattern.Match
import Attest.Pattern.Parser
import Attest.Text.Case
import Attest.Value.Basic

/-!
# Scalars of documents

What a text in a settings document stands for. The type of a text without quotes is decided by its
form: truth values, numbers, nothing, days and moments each have forms of their own, and every other
text is a text. A type, whether by form or by tag, says how the text is read.

* `Tag.ofForm`: the type of a text by its form.
* `readScalar`: the value of a text of a type.
-/

namespace Attest.Document

/-- A form of texts. -/
def form (source : String) : Pattern :=
  (Pattern.compile source false).toOption.getD ⟨.text source, Pattern.Options.default, .empty, 0⟩

def truthForm : Pattern :=
  form ("^(?:yes|Yes|YES|no|No|NO|true|True|TRUE|false|False|FALSE|" ++
    "on|On|ON|off|Off|OFF)$")

def floatForm : Pattern :=
  form ("^(?:[-+]?(?:[0-9][0-9_]*)\\.[0-9_]*(?:[eE][-+][0-9]+)?|" ++
    "\\.[0-9][0-9_]*(?:[eE][-+][0-9]+)?|[-+]?[0-9][0-9_]*(?::[0-5]?[0-9])+\\.[0-9_]*|" ++
    "[-+]?\\.(?:inf|Inf|INF)|\\.(?:nan|NaN|NAN))$")

def intForm : Pattern :=
  form ("^(?:[-+]?0b[0-1_]+|[-+]?0[0-7_]+|[-+]?(?:0|[1-9][0-9_]*)|[-+]?0x[0-9a-fA-F_]+|" ++
    "[-+]?[1-9][0-9_]*(?::[0-5]?[0-9])+)$")

def nullForm : Pattern := form "^(?:~|null|Null|NULL|)$"

def stampForm : Pattern :=
  form ("^(?:[0-9][0-9][0-9][0-9]-[0-9][0-9]-[0-9][0-9]|" ++
    "[0-9][0-9][0-9][0-9]-[0-9][0-9]?-[0-9][0-9]?(?:[Tt]|[ \\t]+)[0-9][0-9]?:" ++
    "[0-9][0-9]:[0-9][0-9](?:\\.[0-9]*)?(?:[ \\t]*(?:Z|[-+][0-9][0-9]?(?::[0-9][0-9])?))?)$")

def mergeForm : Pattern := form "^(?:<<)$"

def valueForm : Pattern := form "^(?:=)$"

def markForm : Pattern := form "^(?:!|&|\\*)$"

/-- The types that a form can give, each with the characters that its texts begin with. -/
def forms : List (Tag × String × Pattern) :=
  [(.truth, "yYnNtTfFoO", truthForm), (.float, "-+0123456789.", floatForm),
   (.integer, "-+0123456789", intForm), (.merge, "<", mergeForm), (.null, "~nN", nullForm),
   (.stamp, "0123456789", stampForm), (.value, "=", valueForm),
   (.other (knownFront ++ "yaml"), "!&*", markForm)]

/-- The type of a text by its form. -/
def Tag.ofForm (text : String) : Tag :=
  match text.toList with
  | [] => .null
  | c :: _ =>
    match forms.find? fun (_, starts, pattern) => starts.toList.contains c && pattern.search text with
    | some (tag, _, _) => tag
    | none => .text

/-! ## Numbers -/

/-- A text of a type that has no room for it, such as a thirteenth month. -/
def unreadable : Fault := .raised "ValueError" "unreadable scalar"

/-- The number that a text denotes in a base. -/
def ofDigits (base : Nat) (digits : List Char) : Except Fault Int :=
  match Number.readIn base digits with
  | some n => .ok n
  | none => .error unreadable

/-- A decimal integer. -/
def ofDecimal (digits : List Char) : Except Fault Int :=
  match Number.readInt (String.ofList digits) with
  | .ok n => .ok n
  | .error _ => .error unreadable

/-- An integer: binary, octal, hexadecimal, decimal, or in sixties. -/
def readInt (text : String) : Except Fault Int := do
  let chars := text.toList.filter (· != '_')
  if chars.isEmpty then throw .emptyNumeral
  let (negative, digits) := Number.takeSign chars
  let magnitude ←
    match digits with
    | [] => throw .emptyNumeral
    | ['0'] => pure 0
    | '0' :: 'b' :: rest => ofDigits 2 rest
    | '0' :: 'x' :: rest => ofDigits 16 rest
    | '0' :: _ => ofDigits 8 digits
    | _ => (digits.splitOn ':').foldlM (fun n part => do return n * 60 + (← ofDecimal part)) 0
  return if negative then -magnitude else magnitude

/-- A part of a float. -/
def readPart (part : List Char) : Except Fault Float :=
  match Number.readFloat (String.ofList part) with
  | some x => .ok x
  | none => .error unreadable

/-- The sum of parts in sixties, of which the first is the lowest. -/
def sumInSixties (parts : List Float) : Except Fault Float := do
  let (sum, _) ← parts.foldlM
    (fun ((sum, unit) : Float × Nat) part =>
      match Number.ofInt? unit with
      | some x => .ok (sum + part * x, unit * 60)
      | none => .error .integerTooLarge)
    ((0.0, 1) : Float × Nat)
  return sum

/-- A float, the infinities and the undefined value included. -/
def readFloat (text : String) : Except Fault Float := do
  let chars := (Text.lower (String.ofList (text.toList.filter (· != '_')))).toList
  if chars.isEmpty then throw .emptyNumeral
  let (negative, digits) := Number.takeSign chars
  let magnitude ←
    if digits == ".inf".toList then pure (Number.infinity false)
    else if digits == ".nan".toList then pure Number.nan
    else if digits.contains ':' then do
      sumInSixties (← (digits.splitOn ':').mapM readPart).reverse
    else readPart digits
  return if negative then -magnitude else magnitude

/-! ## Days and moments -/

/-- From one to two digits in front, and the rest. -/
def upToTwoDigits : List Char → Option (Nat × List Char)
  | a :: b :: rest =>
    if !a.isDigit then none
    else if b.isDigit then some (Number.digitsValue [a, b], rest)
    else some (Number.digitsValue [a], b :: rest)
  | [a] => if a.isDigit then some (Number.digitsValue [a], []) else none
  | [] => none

/-- Exactly so many digits in front, and the rest. -/
def exactDigits (count : Nat) (chars : List Char) : Option (Nat × List Char) :=
  let digits := (chars.take count).takeWhile Char.isDigit
  if digits.length == count then some (Number.digitsValue digits, chars.drop count) else none

/-- What is left behind a character that must be there. -/
def behind (c : Char) : List Char → Option (List Char)
  | first :: rest => if first == c then some rest else none
  | [] => none

/-- Whether nothing is left, or nothing but one line break. -/
def isAtEnd (chars : List Char) : Bool := chars.isEmpty || chars == ['\n']

def isBlankChar (c : Char) : Bool := c == ' ' || c == '\t'

/-- The offset at the end of a moment in microseconds: none, universal time, or hours and
minutes. -/
def readOffset (chars : List Char) : Option (Option Int) :=
  if isAtEnd chars then some none
  else
    match chars.dropWhile isBlankChar with
    | 'Z' :: rest => if isAtEnd rest then some (some 0) else none
    | sign :: rest => do
      if sign != '+' && sign != '-' then none
      let (hours, rest) ← upToTwoDigits rest
      let (minutes, rest) ←
        match rest with
        | ':' :: rest => exactDigits 2 rest
        | _ => some (0, rest)
      let micros : Int := (hours * 60 + minutes) * 60000000
      if isAtEnd rest then some (some (if sign == '-' then -micros else micros)) else none
    | [] => none

/-- The time of a moment, behind what separates it from the day. -/
def readClock (chars : List Char) : Option Calendar.Time := do
  let (hour, rest) ← upToTwoDigits chars
  let (minute, rest) ← exactDigits 2 (← behind ':' rest)
  let (second, rest) ← exactDigits 2 (← behind ':' rest)
  let (fraction, rest) := match rest with
    | '.' :: more => (more.takeWhile Char.isDigit, more.dropWhile Char.isDigit)
    | _ => ([], rest)
  let digits := fraction.take 6
  let micro := Number.digitsValue (digits ++ List.replicate (6 - digits.length) '0')
  return ⟨hour, minute, second, micro, ← readOffset rest⟩

/-- A day alone, or a day and a time on it; nothing says yet that there is such a day. -/
def readStampParts (chars : List Char) : Option (Calendar.Date × Option Calendar.Time) := do
  let (year, rest) ← exactDigits 4 chars
  let (month, rest) ← upToTwoDigits (← behind '-' rest)
  let (day, rest) ← upToTwoDigits (← behind '-' rest)
  let date : Calendar.Date := ⟨year, month, day⟩
  if isAtEnd rest then return (date, none)
  else
    match rest with
    | 'T' :: clock | 't' :: clock => return (date, some (← readClock clock))
    | c :: _ =>
      if isBlankChar c then return (date, some (← readClock (rest.dropWhile isBlankChar))) else none
    | [] => none

/-- A day or a moment. -/
def readStamp (text : String) : Except Fault Value :=
  match readStampParts text.toList with
  | none => .error (.noAttribute "'NoneType' object" "groupdict")
  | some (date, time) =>
    if !date.isValid then .error unreadable
    else
      match time with
      | none => .ok (.date date)
      | some time => if time.isValid then .ok (.moment ⟨date, time⟩) else .error unreadable

/-! ## All types -/

/-- The truth value that a spelling stands for. -/
def truthOf? (text : String) : Option Bool :=
  let spelling := Text.lower text
  if ["yes", "true", "on"].contains spelling then some true
  else if ["no", "false", "off"].contains spelling then some false
  else none

/-- The value of a text of a type. -/
def readScalar (tag : Tag) (text : String) : Except Fault Value :=
  match tag with
  | .null => .ok .null
  | .truth =>
    match truthOf? text with
    | some b => .ok (.bool b)
    | none => .error (.raised "KeyError" (Text.quoted text))
  | .integer => do return .int (← readInt text)
  | .float => do return .float (← readFloat text)
  | .binary =>
    match Binary.decode? text.toList with
    | some bytes => .ok (.bytes bytes)
    | none => .error .badDocument
  | .stamp => readStamp text
  | .text => .ok (.text text)
  | _ => .error .badDocument

end Attest.Document
