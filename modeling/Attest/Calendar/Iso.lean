import Attest.Calendar.Moment

/-!
# Reading dates and times

The basic and extended forms of a date, by month or by week, followed by any one character and a
time. A time is hours with optional minutes, seconds and fraction, and an optional offset of the
same form. Texts are read as their bytes, so that a separator of several bytes counts as one.
-/

namespace Attest.Calendar

/-- The value of an ASCII digit. -/
def byteDigit? (b : Nat) : Option Nat := if 48 ≤ b ∧ b ≤ 57 then some (b - 48) else none

/-- Exactly `count` digits from the front, and the rest. -/
def takeDigits : (count : Nat) → (value : Nat) → List Nat → Option (Nat × List Nat)
  | 0, value, s => some (value, s)
  | _ + 1, _, [] => none
  | count + 1, value, b :: rest =>
    match byteDigit? b with
    | some d => takeDigits count (10 * value + d) rest
    | none => none

/-- Where the date ends in the text: the length of the form that the first bytes announce. -/
def dateLength (s : List Nat) : Option Nat :=
  let at4 := s.getD 4 0
  let at5 := s.getD 5 0
  if s.length == 7 then some 7
  else if at4 == 45 then
    if at5 == 87 then
      if s.length < 8 then none
      else if s.length > 8 && s.getD 8 0 == 45 then
        if s.length == 9 then none
        -- two digits after the second hyphen are an hour, and the hyphen separates
        else if s.length > 10 && (byteDigit? (s.getD 10 0)).isSome then some 8
        else some 10
      else some 8
    else some 10
  else if at4 == 87 then
    let digits := ((s.drop 7).takeWhile fun b => (byteDigit? b).isSome).length
    let stop := 7 + digits
    if stop < 9 then some stop
    else if stop % 2 == 0 then some 7
    else some 8
  else some 8

/-- Reads a date by week after the year and the `W`. -/
def readWeek (year : Nat) (hyphens : Bool) (s : List Nat) : Option Date := do
  let (week, rest) ← takeDigits 2 0 s
  if rest.isEmpty then Date.ofWeek? year week 1
  else
    let rest ← if hyphens then (match rest with | 45 :: more => some more | _ => none) else some rest
    let (day, _) ← takeDigits 1 0 rest
    Date.ofWeek? year week day

/-- Reads a date in one of its forms. -/
def readDate (s : List Nat) : Option Date := do
  let (year, rest) ← takeDigits 4 0 s
  let (hyphens, rest) := match rest with
    | 45 :: more => (true, more)
    | _ => (false, rest)
  match rest with
  | 87 :: more => readWeek year hyphens more
  | _ =>
    let (month, rest) ← takeDigits 2 0 rest
    let rest ← if hyphens then (match rest with | 45 :: more => some more | _ => none) else some rest
    let (day, rest) ← takeDigits 2 0 rest
    if rest.isEmpty && (Date.mk year month day).isValid then some ⟨year, month, day⟩ else none

/-- Hour, minute, second and microsecond, and whether nothing was left over. -/
structure Clock where
  fields : List Nat
  micro : Nat
  complete : Bool

/-- Reads the digits of a fraction; all beyond the sixth are dropped. -/
def readFraction (fields : List Nat) (s : List Nat) : Option Clock := do
  let count := min s.length 6
  let (value, rest) ← takeDigits count 0 s
  let rest := rest.dropWhile fun b => (byteDigit? b).isSome
  some ⟨fields, value * Nat.pow 10 (6 - count), rest.isEmpty⟩

/-- Reads the fields of a clock, of which some are left; behind the last one stands a fraction. The
first separator, or its absence, decides about the others; a point or a comma ends the fields early;
one character that ends the text is tolerated but reported. -/
def readFields (colons : Bool) (fields : List Nat) : (left : Nat) → List Nat → Option Clock
  | 0, s => readFraction fields s
  | left + 1, s => do
    let (value, rest) ← takeDigits 2 0 s
    let fields := fields ++ [value]
    match rest with
    | [] => some ⟨fields, 0, true⟩
    | c :: more =>
      let colons := if fields.length == 1 then c == 58 else colons
      if more.isEmpty then some ⟨fields, 0, false⟩
      else if colons && c == 58 then readFields colons fields left more
      else if c == 46 || c == 44 then readFraction fields more
      else if !colons then readFields colons fields left rest
      else none

/-- Reads a clock. -/
def readClock (s : List Nat) : Option Clock := readFields true [] 3 s

/-- Reads a time with an optional offset. -/
def readTime (s : List Nat) : Option Time := do
  let isSign (b : Nat) : Bool := b == 43 || b == 45 || b == 90
  -- the sign is looked for from the first byte, which may be one
  let before := s.takeWhile fun b => !isSign b
  let after := s.drop before.length
  let clock ← readClock before
  let time (offset : Option Int) : Time :=
    ⟨clock.fields.getD 0 0, clock.fields.getD 1 0, clock.fields.getD 2 0, clock.micro, offset⟩
  match after with
  | [] => if clock.complete then some (time none) else none
  | 90 :: rest => if rest.isEmpty then some (time (some 0)) else none
  | sign :: rest =>
    let zone ← readClock rest
    if zone.complete then
      let seconds := (zone.fields.getD 0 0 * 60 + zone.fields.getD 1 0) * 60 + zone.fields.getD 2 0
      -- an offset below one second counts as none
      let micros : Int := if seconds == 0 then 0 else (seconds * 1000000 + zone.micro : Nat)
      some (time (some (if sign == 45 then -micros else micros)))
    else none

/-- The length in bytes of the character that a byte begins. -/
def characterLength (b : Nat) : Nat :=
  if b < 0x80 then 1 else if b ≥ 0xf0 then 4 else if b ≥ 0xe0 then 3 else 2

/-- Reads a moment: a date alone, or a date, any one character, and a time. -/
def Moment.read (text : String) : Option Moment := do
  let s := text.toUTF8.toList.map UInt8.toNat
  if s.length < 7 then none
  else
    let stop ← dateLength s
    let date ← readDate (s.take stop)
    let rest := s.drop stop
    match rest with
    | [] => some (Moment.ofDate date)
    | b :: _ =>
      let time ← readTime (rest.drop (characterLength b))
      if time.isValid then some ⟨date, time⟩ else none

/-- Reads a date alone. -/
def Date.read (text : String) : Option Date := readDate (text.toUTF8.toList.map UInt8.toNat)

/-- Reads a time alone. -/
def Time.read (text : String) : Option Time := do
  let time ← readTime (text.toUTF8.toList.map UInt8.toNat)
  if time.isValid then some time else none

end Attest.Calendar
