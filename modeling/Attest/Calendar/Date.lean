/-!
# Dates

Days of the proleptic Gregorian calendar in the years 1 to 9999, their count from the first day of
year 1, and the weeks that begin on a Monday.
-/

namespace Attest.Calendar

/-- A day of the calendar. -/
structure Date where
  year : Nat
  month : Nat
  day : Nat
  deriving DecidableEq, Repr

def isLeap (year : Nat) : Bool := year % 4 == 0 && (year % 100 != 0 || year % 400 == 0)

def daysInMonth (year month : Nat) : Nat :=
  match month with
  | 2 => if isLeap year then 29 else 28
  | 4 | 6 | 9 | 11 => 30
  | _ => 31

/-- Whether year, month and day name a day between the years 1 and 9999. -/
def Date.isValid (d : Date) : Bool :=
  1 ≤ d.year && d.year ≤ 9999 && 1 ≤ d.month && d.month ≤ 12 && 1 ≤ d.day &&
    d.day ≤ daysInMonth d.year d.month

/-- The number of days before the first of January. -/
def daysBeforeYear (year : Nat) : Nat :=
  let y := year - 1
  y * 365 + y / 4 - y / 100 + y / 400

/-- The number of days before the first of the month, within its year. -/
def daysBeforeMonth (year month : Nat) : Nat :=
  (List.range (month - 1)).foldl (fun n i => n + daysInMonth year (i + 1)) 0

/-- The number of a day; the first day of year 1 has the number 1. -/
def Date.ordinal (d : Date) : Nat :=
  daysBeforeYear d.year + daysBeforeMonth d.year d.month + d.day

/-- Finds month and day from the number of a day within its year, counted from 0. -/
def monthAndDay (year : Nat) : (months first remaining : Nat) → Nat × Nat
  | 0, first, remaining => (first, remaining + 1)
  | months + 1, first, remaining =>
    let length := daysInMonth year first
    if remaining < length then (first, remaining + 1)
    else monthAndDay year months (first + 1) (remaining - length)

/-- The day with a given number, for a positive number. -/
def Date.ofOrdinal (n : Nat) : Date :=
  let n := n - 1
  let n400 := n / 146097
  let r := n % 146097
  let n100 := min (r / 36524) 3
  let r := r - n100 * 36524
  let n4 := r / 1461
  let r := r % 1461
  let n1 := min (r / 365) 3
  let year := n400 * 400 + n100 * 100 + n4 * 4 + n1 + 1
  let (month, day) := monthAndDay year 11 1 (r - n1 * 365)
  ⟨year, month, day⟩

/-- The day of the week; 0 is Monday. -/
def Date.weekday (d : Date) : Nat := (d.ordinal + 6) % 7

/-- The number of the Monday that begins the first week of a year, the week of its first
Thursday. -/
def firstMonday (year : Nat) : Int :=
  let first : Int := (Date.mk year 1 1).ordinal
  let weekday : Int := (Date.mk year 1 1).weekday
  let monday := first - weekday
  if weekday > 3 then monday + 7 else monday

/-- Whether a year has fifty-three weeks. -/
def hasLongWeekYear (year : Nat) : Bool :=
  let weekday := (Date.mk year 1 1).weekday
  weekday == 3 || (weekday == 2 && isLeap year)

/-- The day given by a year, a week and a day of the week, 1 being Monday. -/
def Date.ofWeek? (year week day : Nat) : Option Date :=
  if year < 1 || year > 9999 || week < 1 || week > 53 then none
  else if week == 53 && !hasLongWeekYear year then none
  else if day < 1 || day > 7 then none
  else
    let n := firstMonday year + ((week : Int) - 1) * 7 + (day : Int) - 1
    if n < 1 then none
    else
      let d := Date.ofOrdinal n.toNat
      if d.isValid then some d else none

/-- The order of two days. -/
def Date.compare (a b : Date) : Ordering := Ord.compare a.ordinal b.ordinal

/-- A number with leading zeros up to a width. -/
def padded (width n : Nat) : String :=
  let digits := Nat.toDigits 10 n
  String.ofList (List.replicate (width - digits.length) '0' ++ digits)

/-- Year, month and day, joined by hyphens. -/
def Date.text (d : Date) : String :=
  padded 4 d.year ++ "-" ++ padded 2 d.month ++ "-" ++ padded 2 d.day

end Attest.Calendar
