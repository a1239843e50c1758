import Attest.Value.Convert
import Attest.Value.Strict

/-!
# Texts with places

A text, or bytes, in which percent signs open places for values: a name in parentheses that is
looked up in a map, flags, a width, a precision, and a letter for the form. The values come from a
tuple in order, or one is given alone; nothing is left over unless the values can be looked up by
name.

* `fill`: what goes wrong when the places are filled, if anything does. What the filled text says is
  not needed: all that is asked about it is whether it is the number zero.
-/

namespace Attest.Places

/-- What is filled: a text, or bytes, each of which stands here for the character of its number. -/
inductive Medium where
  | text
  | bytes
  deriving DecidableEq

/-- What is left to read, and the values that are left to use. -/
structure Supply where
  rest : List Char
  position : Nat
  values : List Value
  /-- Where the last written width or precision ended. -/
  numberEnd : Nat

abbrev Filling := StateT Supply (Except Fault)

def refuse {α : Type} (f : PlaceFault) : Filling α := throw (.place f)

/-- The next character, if there is one. -/
def next : Filling (Option Char) := fun s =>
  match s.rest with
  | [] => .ok (none, s)
  | c :: rest => .ok (some c, { s with rest, position := s.position + 1 })

/-- The next character, which must be there to end a place. -/
def nextOfPlace : Filling Char := do
  match ← next with
  | some c => return c
  | none => refuse .unfinished

/-- The next value. -/
def take : Filling Value := fun s =>
  match s.values with
  | [] => .error (.place .tooFewValues)
  | v :: values => .ok (v, { s with values })

/-! ## Names -/

/-- The number of characters up to the parenthesis that closes the open ones. -/
def nameLength : (opened : Nat) → List Char → Option Nat
  | _, [] => none
  | opened, c :: rest =>
    if c == ')' then (if opened == 0 then some 0 else (nameLength (opened - 1) rest).map (· + 1))
    else (nameLength (if c == '(' then opened + 1 else opened) rest).map (· + 1)

/-- A name as the key to look up. -/
def keyOf (medium : Medium) (name : List Char) : Value :=
  match medium with
  | .text => .text (String.ofList name)
  | .bytes => .bytes (name.map fun c => UInt8.ofNat c.toNat)

/-- What stands under a key. -/
def valueUnder (source key : Value) : Except Fault Value :=
  match source.entries? with
  | some entries =>
    match Value.lookup key entries with
    | some v => .ok v
    | none => do throw (.raised "KeyError" (← key.shown))
  | none =>
    let owner := match source with
      | .bytes _ => "byte"
      | _ => "list"
    .error (.badCall (owner ++ " indices must be integers or slices, not " ++ key.typeName))

/-- Reads a name, the parenthesis before it being read: the only value left is the one under it. -/
def takeName (medium : Medium) (source : Option Value) : Filling Unit := do
  match source with
  | none => refuse .noNames
  | some source =>
    let s ← get
    match nameLength 0 s.rest with
    | none => refuse .unfinishedName
    | some n =>
      let v ← (valueUnder source (keyOf medium (s.rest.take n)) : Except Fault Value)
      set { s with rest := s.rest.drop (n + 1), position := s.position + n + 1, values := [v] }

/-! ## Flags, widths and precisions -/

def isFlag (c : Char) : Bool := "-+ #0".toList.contains c

/-- Reads over flags: answers the first character that is none. -/
def skipFlags (c : Char) : Filling Char := do
  let s ← get
  if isFlag c then
    let flags := s.rest.takeWhile isFlag
    set { s with rest := s.rest.drop flags.length, position := s.position + flags.length }
    nextOfPlace
  else return c

/-- The number that starts with a digit, if it is not above a limit. -/
def number (limit : Nat) (tooBig : PlaceFault) (c : Char) : Filling Nat := do
  let s ← get
  let digits := s.rest.takeWhile Char.isDigit
  let position := s.position + digits.length
  set { s with rest := s.rest.drop digits.length, position, numberEnd := position }
  digits.foldlM
    (fun n d =>
      let digit := d.toNat - '0'.toNat
      if n > (limit - digit) / 10 then refuse tooBig else pure (n * 10 + digit))
    (c.toNat - '0'.toNat)

/-- The number that the next value is; it must fit a number of so many bits. -/
def numberTaken (bits : Nat) (type : String) : Filling Int := do
  match (← take).asInt? with
  | none => refuse .wantsInteger
  | some n =>
    if -(Nat.pow 2 (bits - 1) : Int) ≤ n && n < (Nat.pow 2 (bits - 1) : Int) then return n
    else throw (.integerTooWide type)

/-- Reads a width, if there is one: answers it, and the first character behind it. -/
def takeWidth (c : Char) : Filling (Nat × Char) := do
  if c == '*' then
    let n ← numberTaken 64 "ssize_t"
    return (n.natAbs, ← nextOfPlace)
  else if c.isDigit then
    let n ← number (Nat.pow 2 63 - 1) .widthTooBig c
    return (n, ← nextOfPlace)
  else return (0, c)

/-- A width that no memory holds. -/
def memoryLimit : Nat := Nat.pow 2 38

/-- Reads a precision, if there is one: answers it, and the first character behind it. -/
def takePrecision (medium : Medium) (c : Char) : Filling (Int × Char) := do
  if c != '.' then return (-1, c)
  let c ← nextOfPlace
  if c == '*' then
    let n ← numberTaken 32 "int"
    return (max n 0, ← nextOfPlace)
  else if c.isDigit then
    let n ← number (Nat.pow 2 31 - 1) (.precisionTooBig (medium == Medium.bytes)) c
    return (n, ← nextOfPlace)
  else return (0, c)

/-- Reads over a letter that says nothing. -/
def skipLength (c : Char) : Filling Char := if "hlL".toList.contains c then nextOfPlace else return c

/-! ## Forms -/

/-- Whether a value can be written as a whole number in the form of a letter. -/
def checkWhole (form : Char) (precision : Int) (v : Value) : Except Fault Unit := do
  let exact := "oxX".toList.contains form
  let n ← match v.asInt?, v.asFloat? with
    | some n, _ => pure n
    | none, some _ =>
      if exact then .error (.place (.notANumber form true v.qualifiedTypeName)) else v.toInt
    | none, none => .error (.place (.notANumber form exact v.qualifiedTypeName))
  if !exact then
    let _ ← Value.intShown n
  if precision > 2147483644 then .error (.place .precisionTooLarge)

/-- Whether a value can be written as a float. -/
def checkFloat (medium : Medium) (v : Value) : Except Fault Unit :=
  match medium, v.numberAsFloat? with
  | _, some (.ok _) => .ok ()
  | .text, some (.error e) => .error e
  | .text, none => .error (.notReal v.qualifiedTypeName)
  | .bytes, _ => .error (.place (.noFloat v.qualifiedTypeName))

/-- Whether a value is one character, or the number of one. -/
def checkCharacter (medium : Medium) (v : Value) : Except Fault Unit :=
  let isOne : Bool := match medium, v.asText?, v with
    | .text, some s, _ => s.length == 1
    | .bytes, _, .bytes bs => bs.length == 1
    | _, _, _ => false
  if isOne then .ok ()
  else
    match v.asInt? with
    | none => .error (.place (.notACharacter (medium == Medium.bytes)))
    | some n =>
      let limit : Int := if medium == Medium.bytes then 256 else 0x110000
      if 0 ≤ n && n < limit then .ok ()
      else .error (.place (.characterOutOfRange (medium == Medium.bytes)))

/-- Whether a value can be written in the form of a letter, which stands at a position. -/
def check (medium : Medium) (form : Char) (position : Nat) (precision : Int) (v : Value) :
    Except Fault Unit := do
  let writesBytes := medium == Medium.bytes && (form == 's' || form == 'b')
  if writesBytes then
    match v with
    | .bytes _ => return ()
    | _ => .error (.place (.notBytes v.qualifiedTypeName))
  else if form == 's' then
    let _ ← v.plain
  else if form == 'r' || form == 'a' then
    let _ ← v.shown
  else if "diuoxX".toList.contains form then checkWhole form precision v
  else if "eEfFgG".toList.contains form then checkFloat medium v
  else if form == 'c' then checkCharacter medium v
  else .error (.place (.unknownForm (medium == Medium.bytes) form.toNat position))

/-- The letter of a form: in bytes, one of the two letters for integers stands for both. -/
def formOf (medium : Medium) (c : Char) : Char := if medium == Medium.bytes && c == 'i' then 'd' else c

/-! ## Filling -/

/-- Fills one place, the percent sign being read. -/
def fillPlace (medium : Medium) (names : Option Value) : Filling Unit := do
  let c ← nextOfPlace
  if c == '%' then return ()
  let c ← if c == '(' then do
      takeName medium names
      nextOfPlace
    else pure c
  let (width, c) ← takeWidth (← skipFlags c)
  let (precision, c) ← takePrecision medium c
  let c ← skipLength c
  let v ← take
  let s ← get
  let position := s.position - 1
  if medium == Medium.bytes && 128 ≤ c.toNat && position != s.numberEnd then refuse .formOutOfRange
  (check medium (formOf medium c) position precision v : Except Fault Unit)
  if memoryLimit ≤ width then throw .outOfMemory

/-- Fills the places of what is left to read, of which there are not more than the fuel. -/
def fillAll (medium : Medium) (names : Option Value) : (fuel : Nat) → Filling Unit
  | 0 => return ()
  | fuel + 1 => do
    match ← next with
    | none => return ()
    | some c =>
      if c == '%' then fillPlace medium names
      fillAll medium names fuel

/-- Whether a value can be asked for what stands under a name. -/
def hasNames (medium : Medium) : Value → Bool
  | .map _ | .list _ => true
  | .bytes _ => medium == .text
  | _ => false

/-- What goes wrong when the places of a text, or of bytes, are filled with a value, or with those
of a tuple. -/
def fill (medium : Medium) (chars : List Char) (v : Value) : Except Fault Unit := do
  let values := match v with
    | .tuple _ => v.items
    | _ => [v]
  let names := if hasNames medium v then some v else none
  let (_, s) ← (fillAll medium names chars.length).run ⟨chars, 0, values, 0⟩
  if !s.values.isEmpty && names.isNone then .error (.place (.valuesLeft (medium == Medium.bytes)))

end Attest.Places
