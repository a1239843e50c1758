/-!
# Exact values of binary floats

What a float stands for, read from its bits, and the float nearest to a ratio of integers. Order and
equality of integers and floats are those of the exact values, so a large integer is never rounded
on the way to a comparison.

* `Extended.compare?`: the order of the extended line; nothing compares with an undefined value.
* `ofRatio`: the nearest float, a tie going to the even mantissa.
-/

namespace Attest.Number

/-- A binary fraction `numerator / 2 ^ shift`. -/
structure Fraction where
  numerator : Int
  shift : Nat
  deriving DecidableEq, Repr

/-- A point of the extended number line, or none. -/
inductive Extended where
  | undefined
  | negativeInfinity
  | finite (value : Fraction)
  | positiveInfinity
  deriving DecidableEq, Repr

/-- The order of two fractions, found over their common denominator. -/
def Fraction.compare (a b : Fraction) : Ordering :=
  Ord.compare (a.numerator * Int.pow 2 b.shift) (b.numerator * Int.pow 2 a.shift)

/-- The order of two points; `none` when one of them is undefined. -/
def Extended.compare? : Extended → Extended → Option Ordering
  | .undefined, _ => none
  | _, .undefined => none
  | .negativeInfinity, .negativeInfinity => some .eq
  | .negativeInfinity, _ => some .lt
  | _, .negativeInfinity => some .gt
  | .positiveInfinity, .positiveInfinity => some .eq
  | .positiveInfinity, _ => some .gt
  | _, .positiveInfinity => some .lt
  | .finite a, .finite b => some (a.compare b)

/-! ## Reading the bits -/

/-- The sign bit. -/
def isNegative (x : Float) : Bool := x.toBits.toNat / Nat.pow 2 63 % 2 == 1

/-- The eleven bits of the exponent. -/
def exponentField (x : Float) : Nat := x.toBits.toNat / Nat.pow 2 52 % Nat.pow 2 11

/-- The fifty-two stored bits of the mantissa. -/
def mantissaField (x : Float) : Nat := x.toBits.toNat % Nat.pow 2 52

def isNan (x : Float) : Bool := exponentField x == 2047 && mantissaField x != 0

def isInfinite (x : Float) : Bool := exponentField x == 2047 && mantissaField x == 0

def isFinite (x : Float) : Bool := exponentField x != 2047

/-- The magnitude of a finite float is `mantissa * 2 ^ exponent`. -/
def mantissa (x : Float) : Nat :=
  if exponentField x == 0 then mantissaField x else Nat.pow 2 52 + mantissaField x

def exponent (x : Float) : Int :=
  if exponentField x == 0 then -1074 else (exponentField x : Int) - 1075

/-- The exact value of a finite float. -/
def toFraction (x : Float) : Fraction :=
  let m : Int := if isNegative x then -(mantissa x : Int) else mantissa x
  match exponent x with
  | .ofNat e => ⟨m * Int.pow 2 e, 0⟩
  | .negSucc e => ⟨m, e + 1⟩

/-- The point of the extended line that a float stands for. -/
def toExtended (x : Float) : Extended :=
  if isNan x then .undefined
  else if isInfinite x then (if isNegative x then .negativeInfinity else .positiveInfinity)
  else .finite (toFraction x)

/-- The integer that a finite float is, if it is one. -/
def toInt? (x : Float) : Option Int :=
  if isFinite x then
    let f := toFraction x
    let unit := Int.pow 2 f.shift
    if f.numerator % unit == 0 then some (f.numerator / unit) else none
  else none

/-- A finite float without its fraction, cut toward zero. -/
def truncate? (x : Float) : Option Int :=
  if isFinite x then
    let f := toFraction x
    some (f.numerator.tdiv (Int.pow 2 f.shift))
  else none

/-! ## Writing the bits -/

def nan : Float := Float.ofBits 0x7ff8000000000000

def infinity (negative : Bool) : Float :=
  Float.ofBits (if negative then 0xfff0000000000000 else 0x7ff0000000000000)

/-- The quotient rounded to the nearest integer, a tie to the even one. -/
def roundDiv (num den : Nat) : Nat :=
  let q := num / den
  let r := num % den
  if 2 * r < den then q
  else if den < 2 * r then q + 1
  else if q % 2 == 0 then q else q + 1

/-- The binary exponent of the last mantissa bit of the float next to `num / den`. -/
def lastBitExponent (num den : Nat) : Int :=
  let guess : Int := (Nat.log2 num : Int) - (Nat.log2 den : Int) - 52
  -- the quotient has 53 bits at the guess or one below it
  let fits : Bool := match guess with
    | .ofNat e => den * Nat.pow 2 (e + 52) ≤ num
    | .negSucc e => den * Nat.pow 2 52 ≤ num * Nat.pow 2 (e + 1)
  max (if fits then guess else guess - 1) (-1074)

/-- The float nearest to `num / den`, or the infinity beyond the largest one. -/
def ofNatRatio (negative : Bool) (num den : Nat) : Float :=
  let sign : Nat := if negative then Nat.pow 2 63 else 0
  if num == 0 then Float.ofBits (UInt64.ofNat sign)
  else
    let e := lastBitExponent num den
    let m := match e with
      | .ofNat k => roundDiv num (den * Nat.pow 2 k)
      | .negSucc k => roundDiv (num * Nat.pow 2 (k + 1)) den
    -- one past the widest mantissa is the next power of two
    let (m, e) := if m == Nat.pow 2 53 then (Nat.pow 2 52, e + 1) else (m, e)
    if e > 971 then infinity negative
    else
      let one : Nat := Nat.pow 2 52
      let field : Nat := if m < one then m else (e + 1075).toNat * one + (m - one)
      Float.ofBits (UInt64.ofNat (sign + field))

/-- The float nearest to a ratio with a positive denominator. -/
def ofRatio (num : Int) (den : Nat) : Float := ofNatRatio (num < 0) num.natAbs den

/-- The float nearest to an integer; `none` when the integer is beyond every finite float. -/
def ofInt? (n : Int) : Option Float :=
  let x := ofRatio n 1
  if isFinite x then some x else none

end Attest.Number
