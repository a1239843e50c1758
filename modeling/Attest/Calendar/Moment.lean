import Attest.Calendar.Date

/-!
# Times of day and moments

A time of day and a moment may carry an offset from universal time. Two of them are ordered only
when both carry an offset or neither does; with offsets they are ordered as instants.
-/

namespace Attest.Calendar

/-- A time of day, to the microsecond, with its offset from universal time in microseconds. -/
structure Time where
  hour : Nat
  minute : Nat
  second : Nat
  micro : Nat
  offset : Option Int
  deriving DecidableEq, Repr

/-- A day and a time on it. -/
structure Moment where
  date : Date
  time : Time
  deriving DecidableEq, Repr

def microsPerDay : Int := 86400000000

/-- Whether hour, minute, second and offset are in range. -/
def Time.isValid (t : Time) : Bool :=
  t.hour < 24 && t.minute < 60 && t.second < 60 && t.micro < 1000000 &&
    match t.offset with
    | none => true
    | some o => -microsPerDay < o && o < microsPerDay

/-- Microseconds since midnight, as shown on the clock. -/
def Time.clock (t : Time) : Int :=
  ((t.hour * 60 + t.minute) * 60 + t.second : Nat) * 1000000 + (t.micro : Int)

/-- Midnight without an offset. -/
def Time.midnight : Time := ⟨0, 0, 0, 0, none⟩

/-- The moment a day begins, without an offset. -/
def Moment.ofDate (d : Date) : Moment := ⟨d, Time.midnight⟩

/-- Microseconds since the start of the day before year 1, as shown on the clock. -/
def Moment.clock (m : Moment) : Int := (m.date.ordinal : Int) * microsPerDay + m.time.clock

/-- The order of two readings of a clock; `none` when only one of them has an offset. -/
def compareClocks? (a b : Int) (offsetA offsetB : Option Int) : Option Ordering :=
  match offsetA, offsetB with
  | none, none => some (compare a b)
  | some oa, some ob => some (compare (a - oa) (b - ob))
  | _, _ => none

/-- The order of two times; `none` when only one of them has an offset. -/
def Time.compare? (a b : Time) : Option Ordering := compareClocks? a.clock b.clock a.offset b.offset

/-- The order of two moments; `none` when only one of them has an offset. -/
def Moment.compare? (a b : Moment) : Option Ordering :=
  compareClocks? a.clock b.clock a.time.offset b.time.offset

/-! ## Text -/

/-- Hour, minute and second, and the microseconds unless there are none. -/
def clockText (hour minute second micro : Nat) : String :=
  padded 2 hour ++ ":" ++ padded 2 minute ++ ":" ++ padded 2 second ++
    (if micro == 0 then "" else "." ++ padded 6 micro)

/-- An offset with its sign; seconds and microseconds only as far as there are any. -/
def offsetText (offset : Int) : String :=
  let n := offset.natAbs
  let micro := n % 1000000
  let seconds := n / 1000000
  let second := seconds % 60
  (if offset < 0 then "-" else "+") ++ padded 2 (seconds / 3600) ++ ":" ++
    padded 2 (seconds / 60 % 60) ++
    (if second == 0 && micro == 0 then "" else ":" ++ padded 2 second) ++
    (if micro == 0 then "" else "." ++ padded 6 micro)

def Time.text (t : Time) : String :=
  clockText t.hour t.minute t.second t.micro ++ (t.offset.map offsetText).getD ""

/-- Day and time joined by a separator. -/
def Moment.textWith (separator : String) (m : Moment) : String :=
  m.date.text ++ separator ++ m.time.text

/-- Day and time joined by a `T`. -/
def Moment.text (m : Moment) : String := m.textWith "T"

/-! ## Seconds since 1970 -/

/-- The number of the first of January 1970. -/
def epochOrdinal : Int := 719163

/-- The moment a number of seconds and microseconds after 1970 began. The first day of the calendar
is out of reach, and so is all that lies beyond its last. -/
def Moment.ofEpoch? (seconds : Int) (micro : Nat) : Option Moment :=
  if seconds < -62135510400 || seconds > 253402300799 then none
  else
    let day := seconds / 86400 + epochOrdinal
    let rest := (seconds % 86400).toNat
    some ⟨Date.ofOrdinal day.toNat, ⟨rest / 3600, rest / 60 % 60, rest % 60, micro, none⟩⟩

end Attest.Calendar
