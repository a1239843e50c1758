import Attest.Text.Case
import Attest.Value.Order
import Attest.Value.Shown

/-!
# Arithmetic and conversion

The number operations and the conversions between types that checks, changes and user functions rely
on. Operands that an operation does not support are a fault.
-/

namespace Attest.Value

/-- The integer that an integer or a truth value is. -/
def asInt? : Value → Option Int
  | .bool b => some (if b then 1 else 0)
  | .int n => some n
  | _ => none

/-- The float next to an integer. -/
def floatOfInt (n : Int) : Except Fault Float :=
  match Number.ofInt? n with
  | some x => .ok x
  | none => .error .integerTooLarge

/-- A number or a truth value as a float; `none` for anything else. -/
def numberAsFloat? : Value → Option (Except Fault Float)
  | .bool b => some (.ok (if b then 1.0 else 0.0))
  | .int n => some (floatOfInt n)
  | v => v.asFloat?.map .ok

/-- The characters of ASCII bytes. -/
def bytesText (bs : List UInt8) : String := String.ofList (bs.map fun b => Char.ofNat b.toNat)

/-- A value as a float; a text must be a numeral. -/
def toFloat (v : Value) : Except Fault Float :=
  match v.numberAsFloat? with
  | some x => x
  | none =>
    let read (text quoted : String) : Except Fault Float :=
      match Number.readFloat text with
      | some x => .ok x
      | none => .error (.notFloat quoted)
    match v with
    | .bytes bs => read (bytesText bs) (Text.quotedBytes bs)
    | _ =>
      match v.asText? with
      | some s => do read s (← v.shown)
      | none => .error (.noFloat v.qualifiedTypeName)

/-- A value as an integer; a float loses its fraction, a text must be a numeral. -/
def toInt (v : Value) : Except Fault Int :=
  let read (text quoted : String) : Except Fault Int :=
    match Number.readInt text with
    | .ok n => .ok n
    | .error .malformed => .error (.notInteger (clipped quoted))
    | .error (.tooLong digits) => .error (.tooManyDigitsRead digits)
  match v.asFloat?, v with
  | some x, _ =>
    match Number.truncate? x with
    | some n => .ok n
    | none => .error (if Number.isNan x then .undefinedToInteger else .infinityToInteger)
  | none, .bytes bs => read (bytesText bs) (Text.quotedBytes bs)
  | none, _ =>
    match v.asInt?, v.asText? with
    | some n, _ => .ok n
    | none, some s => do read s (← v.shown)
    | none, none => .error (.noInteger v.qualifiedTypeName)

/-! ## Arithmetic -/

/-- The sum of a number and an integer. -/
def plusInt (v : Value) (n : Int) : Except Fault Value :=
  match v, v.asFloat? with
  | .int m, _ => .ok (.int (m + n))
  | _, some x => do return .float (x + (← floatOfInt n))
  | _, none => .error (.unsupportedOperands "+" v.qualifiedTypeName "int")

/-- The product of a number and an integer. -/
def timesInt (v : Value) (n : Int) : Except Fault Value :=
  match v, v.asFloat? with
  | .int m, _ => .ok (.int (m * n))
  | _, some x => do return .float (x * (← floatOfInt n))
  | _, none => .error (.unsupportedOperands "*" v.qualifiedTypeName "int")

/-- One over a number. -/
def inverse (v : Value) : Except Fault Value :=
  match v, v.asFloat? with
  | .int n, _ =>
    if n == 0 then .error .divisionByZero
    else .ok (.float (Number.ofNatRatio (n < 0) 1 n.natAbs))
  | _, some x => if Number.mantissa x == 0 && Number.isFinite x then .error .floatDivisionByZero
    else .ok (.float (1.0 / x))
  | _, none => .error (.unsupportedOperands "/" "int" v.qualifiedTypeName)

/-- An integer to a natural power. Of 0, 1 and -1 the powers repeat, so none is too large. -/
def intPower (n : Int) (e : Nat) : Int :=
  if n.natAbs ≤ 1 then (if e == 0 then 1 else if e % 2 == 0 then n * n else n) else Int.pow n e

/-- A number to the power of one that is not negative. -/
def power (v exponent : Value) : Except Fault Value :=
  match v.asInt?, exponent.asInt? with
  | some n, some e => .ok (.int (intPower n e.toNat))
  | _, _ =>
    match v.numberAsFloat?, exponent.numberAsFloat? with
    | some x, some y => do
      let x ← x
      let y ← y
      let z := Float.pow x y
      if Number.isInfinite z && Number.isFinite x && Number.isFinite y then .error .powerTooLarge
      else return .float z
    | _, _ =>
      .error (.unsupportedOperands "** or pow()" v.qualifiedTypeName exponent.qualifiedTypeName)

/-! ## Conversion -/

/-- The pair that an item of a sequence is taken for, when a map is made from the sequence. -/
def toPair (index : Nat) (v : Value) : Except Fault (Value × Value) :=
  match v.iterate with
  | .error _ => .error (.badPair index none)
  | .ok [a, b] =>
    match a.unhashable? with
    | some culprit => .error (.unhashable culprit)
    | none => .ok (a, b)
  | .ok items => .error (.badPair index (some items.length))

/-- The numbers that may be packed bytes: those of bytes, or of the characters of a text. -/
def codes (v : Value) : List Nat :=
  match v.asText?, v with
  | some s, _ => s.toList.map Char.toNat
  | none, .bytes bs => bs.map UInt8.toNat
  | none, _ => []

/-- A number of which the digits to the base 256 are given. -/
def ofBytes (digits : List Nat) : Nat := digits.foldl (fun n d => 256 * n + d) 0

/-- The day that is packed into four bytes. The highest bit of the month says something else. -/
def unpackDate (bytes : List Nat) : Calendar.Date :=
  ⟨ofBytes (bytes.take 2), bytes.getD 2 0 % 128, bytes.getD 3 0⟩

/-- The moment that is packed into ten bytes. -/
def unpackMoment (bytes : List Nat) : Calendar.Moment :=
  ⟨unpackDate bytes,
    ⟨bytes.getD 4 0, bytes.getD 5 0, bytes.getD 6 0, ofBytes (bytes.drop 7), none⟩⟩

/-- The fault of making a day or a moment from a year alone, which is too little. -/
def tooFewForDate (v : Value) : Fault :=
  match v.asInt? with
  | none => .notWhole v.qualifiedTypeName
  | some n =>
    let word : Int := Nat.pow 2 31
    let double : Int := Nat.pow 2 63
    if n < -double || double ≤ n then .integerTooWide "long"
    else if n < -word || word ≤ n then .beyondWord (n < 0)
    else .missingArgument "month" 2

/-- The day, or the moment, that is packed into a value, if the third byte is the number of a
month. -/
def unpack (isMoment : Bool) (v : Value) : Except Fault Value :=
  let codes := v.codes
  let month := if isMoment then codes.getD 2 0 % 128 else codes.getD 2 0
  if codes.length != (if isMoment then 10 else 4) || month < 1 || 12 < month then
    .error (tooFewForDate v)
  else if codes.any (256 ≤ ·) then .error (.badPacked (if isMoment then "datetime" else "date"))
  else .ok (if isMoment then .moment (unpackMoment codes) else .date (unpackDate codes))

/-- A map from what is no map: of pairs. The class of records and its validators have a method that
lists keys, and so has the type of maps; they are asked for the keys in vain. -/
def toMap (v : Value) : Except Fault Value :=
  let absent (text : String) : Except Fault Value := .error (.badCall text)
  match v with
  | .validator .object _ _ =>
    absent "ObjectValidator.keys() missing 1 required positional argument: 'required'"
  | .type (.validator .object) =>
    absent "ObjectValidator.keys() missing 2 required positional arguments: 'self' and 'required'"
  | .type .map => absent "unbound method dict.keys() needs an argument"
  | _ => do
    let items ← v.iterate
    return ofPairs (← (List.range items.length).zip items |>.mapM fun (i, item) => toPair i item)

/-- A value of a data type, made from another value. -/
def convert (t : DataType) (v : Value) : Except Fault Value :=
  match t with
  | .text => do return .text (← v.plain)
  | .boolean => .ok (.bool v.isTruthy)
  | .integer => do return .int (← v.toInt)
  | .float =>
    match v with
    | .nan id => .ok (.nan id)
    | _ => do return .float (← v.toFloat)
  | .list => do return .list (← v.iterate)
  | .tuple =>
    match v with
    | .tuple items => .ok (.tuple items)
    | _ => do return .tuple (← v.iterate)
  | .map =>
    match v.entries? with
    | some entries => .ok (.map entries)
    | none => v.toMap
  | .moment => v.unpack true
  | .date => v.unpack false
  | .validator kind =>
    .ok (.validator kind (.call (v.asCallable?.getD (.nothing v.qualifiedTypeName))) none)

/-- The value of a data type that is made from nothing. -/
def blank : DataType → Except Fault Value
  | .text => .ok (.text "")
  | .boolean => .ok (.bool false)
  | .integer => .ok (.int 0)
  | .float => .ok (.float 0.0)
  | .list => .ok (.list [])
  | .tuple => .ok (.tuple [])
  | .map => .ok (.map [])
  | .moment | .date => .error (.missingArgument "year" 1)
  | .validator _ =>
    .error (.badCall "Validator.__init__() missing 1 required positional argument: 'step'")

/-- The fault of giving several arguments to a data type, of which it takes one. -/
def tooMany (t : DataType) (count : Nat) : Fault :=
  match t with
  | .validator _ =>
    .badCall ("Validator.__init__() takes 2 positional arguments but " ++ toString (count + 1) ++
      " were given")
  | _ => .badCall (t.name ++ " expected at most 1 argument, got " ++ toString count)

/-- What a data type makes of a list of arguments. -/
def construct (t : DataType) : List Value → Except Fault Value
  | [] => blank t
  | [v] => convert t v
  | args => .error (tooMany t args.length)

end Attest.Value
