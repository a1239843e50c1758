import Attest.Value.Places

/-!
# Divisibility

Whether a number is a multiple of another, in exact arithmetic.
-/

namespace Attest.Value

/-- Whether a float is an exact multiple of another, which is not zero. -/
def isFloatMultiple (x base : Float) : Bool :=
  if Number.isFinite x && !Number.isNan base then
    if Number.isInfinite base then Number.mantissa x == 0
    else
      let a := Number.toFraction x
      let b := Number.toFraction base
      (a.numerator * Int.pow 2 b.shift) % (b.numerator * Int.pow 2 a.shift) == 0
  else false

/-- Whether the remainder of a division is zero. The sign of this division, between a text and a
value, means that the value is filled into the text, which never gives zero. -/
def isMultiple (v base : Value) : Except Fault Bool :=
  match v.asInt?, base.asInt? with
  | some n, some m => if m == 0 then .error .divisionByZero else .ok (n % m == 0)
  | _, _ =>
    match v.numberAsFloat?, base.numberAsFloat? with
    | some x, some y => do
      let x ← x
      let y ← y
      if Number.mantissa y == 0 && Number.isFinite y then .error .floatDivisionByZero
      else return isFloatMultiple x y
    | _, _ =>
      match v.asText?, v with
      | some s, _ => do
        Places.fill .text s.toList base
        return false
      | none, .bytes bs => do
        Places.fill .bytes (bytesText bs).toList base
        return false
      | none, _ => .error (.unsupportedOperands "%" v.qualifiedTypeName base.qualifiedTypeName)

end Attest.Value
