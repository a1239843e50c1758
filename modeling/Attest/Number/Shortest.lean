import Attest.Number.Binary

/-!
# Shortest decimals

The decimal with the fewest digits that reads back as a given float; of those, the nearest. For one,
two, … seventeen digits the two neighbours of the value on the decimal grid are tried in exact
arithmetic, and the first grid with a neighbour in the interval of reals that round to the float
wins.
-/

namespace Attest.Number

/-- A positive decimal `0.d₁d₂… * 10 ^ point`, as its digits and the place of the point. -/
structure Decimal where
  digits : Nat
  count : Nat
  point : Int
  deriving DecidableEq, Repr

/-- The largest `k` with `10 ^ k ≤ num / den`, for positive numbers. -/
def decimalExponent (num den : Nat) : Int :=
  let reaches (k : Int) : Bool := match k with
    | .ofNat k => den * Nat.pow 10 k ≤ num
    | .negSucc k => den ≤ num * Nat.pow 10 (k + 1)
  let guess : Int := ((Nat.log2 num : Int) - (Nat.log2 den : Int)) * 30103 / 100000
  if reaches (guess + 1) then guess + 1
  else if reaches guess then guess
  else if reaches (guess - 1) then guess - 1
  else guess - 2

/-- The interval of reals that round to `m * 2 ^ e`, and the value itself, over one denominator. -/
structure Rounding where
  low : Nat
  value : Nat
  high : Nat
  den : Nat
  closed : Bool

/-- The rounding interval of a positive finite float. -/
def roundingOf (x : Float) : Rounding :=
  let m := mantissa x
  -- below a power of two the grid of floats is twice as fine
  let fine := mantissaField x == 0 && exponentField x > 1
  let low := if fine then 4 * m - 1 else 4 * m - 2
  match exponent x with
  | .ofNat e =>
    let unit := Nat.pow 2 e
    ⟨low * unit, 4 * m * unit, (4 * m + 2) * unit, 4, m % 2 == 0⟩
  | .negSucc e => ⟨low, 4 * m, 4 * m + 2, 4 * Nat.pow 2 (e + 1), m % 2 == 0⟩

/-- Whether `c * unitNum / unitDen` lies in the interval. -/
def Rounding.holds (r : Rounding) (c unitNum unitDen : Nat) : Bool :=
  let v := c * unitNum * r.den
  if r.closed then r.low * unitDen ≤ v && v ≤ r.high * unitDen
  else r.low * unitDen < v && v < r.high * unitDen

/-- The nearest multiple of the unit that lies in the interval. -/
def Rounding.candidate? (r : Rounding) (unitNum unitDen : Nat) : Option Nat :=
  let below := r.value * unitDen / (r.den * unitNum)
  let rest := r.value * unitDen % (r.den * unitNum)
  match r.holds below unitNum unitDen, r.holds (below + 1) unitNum unitDen with
  | true, true =>
    let twice := 2 * rest
    if twice < r.den * unitNum then some below
    else if r.den * unitNum < twice then some (below + 1)
    else some (if below % 2 == 0 then below else below + 1)
  | true, false => some below
  | false, true => some (below + 1)
  | false, false => none

/-- The search over digit counts: `fuel` counts remain, the next has `count` digits. -/
def Rounding.search (r : Rounding) (top : Int) : (fuel count : Nat) → Decimal
  | 0, count => ⟨0, count, 0⟩
  | fuel + 1, count =>
    let unit : Int := top - (count : Int) + 1
    let (unitNum, unitDen) := match unit with
      | .ofNat k => (Nat.pow 10 k, 1)
      | .negSucc k => (1, Nat.pow 10 (k + 1))
    match r.candidate? unitNum unitDen with
    | some c =>
      if c == Nat.pow 10 count then ⟨1, 1, top + 2⟩ else ⟨c, count, top + 1⟩
    | none => r.search top fuel (count + 1)

/-- The shortest decimal of a positive finite float. -/
def shortest (x : Float) : Decimal :=
  let r := roundingOf x
  r.search (decimalExponent r.value r.den) 20 1

end Attest.Number
