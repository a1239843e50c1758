import Attest.Call
import Attest.Calendar.Iso
import Attest.Value.Convert

/-!
# Coercion

What each kind of validator accepts, and what it makes of it: texts stay as they are; numerals
become numbers; a few spellings become truth values; ISO texts and seconds since 1970 become
moments; tuples become lists. Everything else is a failure of the comparison `type`.
-/

namespace Attest

/-- The name of a kind in messages. -/
def Kind.name : Kind → String
  | .any => "any"
  | .string => "string"
  | .number => "number"
  | .integer => "integer"
  | .boolean => "boolean"
  | .date => "date"
  | .array => "array"
  | .object => "object"

/-- A value, or another one where it counts as false. -/
def Value.orElse (v fallback : Value) : Value := if v.isTruthy then v else fallback

/-- A message, or another one where there is none or it is empty. -/
def messageOr (message : Value) (fallback : String) : Value := message.orElse (.text fallback)

/-- The failure of a value of the wrong kind. -/
def wrongKind (kind : Kind) (message v : Value) : Raised :=
  Raised.fail
    { template := messageOr message "Expected value to be $\x7bexpected\x7d, got $\x7btype\x7d"
      got := v, expected := .text kind.name, comparison := .text "type"
      extra := [("type", .text v.describe)] }

namespace Coercion

/-- Spellings of truth values. -/
def truthSpellings : List (String × Bool) :=
  [("true", true), ("false", false), ("t", true), ("f", false), ("yes", true), ("no", false),
   ("y", true), ("n", false), ("on", true), ("off", false), ("1", true), ("0", false)]

def spelledTruth (s : String) : Option Value :=
  (truthSpellings.lookup (Text.lower (Text.trim s))).map .bool

/-- The number that a text denotes: an integer if it is one, else a float. -/
def spelledNumber (s : String) : Option Value :=
  let s := Text.trim s
  match Number.readInt s with
  | .ok n => some (.int n)
  | .error _ =>
    match Number.readFloat s with
    | some x => if Number.isNan x then none else some (.float x)
    | none => none

def spelledInteger (s : String) : Option Value :=
  match Number.readInt (Text.trim s) with
  | .ok n => some (.int n)
  | .error _ => none

/-- The moment that a text denotes; a `Z` stands for universal time. -/
def spelledMoment (s : String) : Option Value :=
  let chars := (Text.trim s).toList.flatMap fun c => if c == 'Z' then "+00:00".toList else [c]
  (Calendar.Moment.read (String.ofList chars)).map .moment

/-- The moment that a float of seconds after 1970 began is, to the nearest microsecond. -/
def epochOfFloat (x : Float) : Option Calendar.Moment := do
  let whole ← Number.truncate? x
  let rest := Number.toFraction ((x - Number.ofRatio whole 1) * 1000000.0)
  let micros := Number.roundDiv rest.numerator.natAbs (Nat.pow 2 rest.shift)
  let micros : Int := if rest.numerator < 0 then -(micros : Int) else micros
  let seconds := if micros ≥ 1000000 then whole + 1 else if micros < 0 then whole - 1 else whole
  Calendar.Moment.ofEpoch? seconds (micros % 1000000).toNat

def epochMoment : Value → Option Value
  | .int n => (Calendar.Moment.ofEpoch? n 0).map .moment
  | v => (v.asFloat?.bind epochOfFloat).map .moment

end Coercion

/-- The type of a real number that is neither an integer nor a float. -/
def Value.foreignReal? : Value → Option String
  | .object ⟨_, .real t _ _⟩ => some t.name
  | _ => none

open Coercion in
/-- The value of a kind that a value is or denotes. The text of an integer can be a fault, and so
can seconds of a type that is not known here. -/
def Kind.accepts? (kind : Kind) (v : Value) : Except Fault (Option Value) :=
  match kind with
  | .any => .ok (some v)
  | .string => .ok (v.asText?.map fun _ => v)
  | .number =>
    match v, v.asFloat? with
    | .int _, _ => .ok (some v)
    | _, some x => .ok (if Number.isNan x then none else some v)
    | _, none => .ok (if v.foreignReal?.isSome then some v else v.asText?.bind spelledNumber)
  | .integer =>
    match v, v.asFloat? with
    | .int _, _ => .ok (some v)
    | _, some x => .ok ((Number.toInt? x).map .int)
    | _, none => .ok (v.asText?.bind spelledInteger)
  | .boolean =>
    match v with
    | .bool _ => .ok (some v)
    | .text _ | .mode _ | .int _ => do return spelledTruth (← v.plain)
    | _ => .ok none
  | .date =>
    match v with
    | .moment _ => .ok (some v)
    | .date d => .ok (some (.moment (Calendar.Moment.ofDate d)))
    | .int _ | .float _ | .nan _ => .ok (epochMoment v)
    | _ =>
      match v.foreignReal? with
      | some type => .error (.notWhole type)
      | none => .ok (v.asText?.bind spelledMoment)
  | .array => .ok (v.sequence?.map .list)
  | .object => .ok (v.entries?.map .map)

/-- The value of a kind, or the failure of a value that is none. -/
def Kind.coerce (kind : Kind) (message v : Value) : Except Raised Value :=
  match kind.accepts? v with
  | .ok (some w) => .ok w
  | .ok none => .error (wrongKind kind message v)
  | .error e => .error (.fault e)

end Attest
