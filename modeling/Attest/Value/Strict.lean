import Attest.Value.Equality
import Attest.Value.Part

/-!
# Strict equality

The equality of checks: truth values are never numbers, integers and floats compare by value, and
all else must be of one type. Two values that hold themselves are compared by a walk through both; a
walk that would come back to where it was does not end, which is a fault.

* `equals_of_not_holdsReference`: without references this is equality by value, and no fault.
-/

namespace Attest.Value

/-- Whether a relation holds between the items of two lists of one length, asked from the left. -/
def allRelated (related : Value → Value → Except Fault Bool) :
    List Value → List Value → Except Fault Bool
  | [], [] => .ok true
  | x :: xs, y :: ys => do if ← related x y then allRelated related xs ys else return false
  | _, _ => .ok false

/-- Whether every entry has one with the same key among others, and their values are related. -/
def entriesRelated (related : Value → Value → Except Fault Bool) (others : List (Value × Value)) :
    List (Value × Value) → Except Fault Bool
  | [] => .ok true
  | (k, v) :: rest =>
    match lookup k others with
    | none => .ok false
    | some w => do if ← related w v then entriesRelated related others rest else return false

/-- Equality by value, walking at most so deep. -/
def equalsWithin : (depth : Nat) → Value → Value → Except Fault Bool
  | 0, _, _ => .error .endlessComparison
  | depth + 1, a, b =>
    match a, b with
    | .list xs, .list ys =>
      if xs.length == ys.length then allRelated (equalsWithin depth) a.items b.items else .ok false
    | .tuple _, .tuple _ => allRelated (equalsWithin depth) a.items b.items
    | .map xs, .map ys =>
      if xs.length == ys.length then
        entriesRelated (equalsWithin depth) ((b.entries?).getD []) ((a.entries?).getD [])
      else .ok false
    | _, _ => .ok (a.same b)

/-- More than the number of pairs of parts of two values, in either order: a walk through both that
goes deeper comes to a pair for the second time. -/
def pairDepth (a b : Value) : Nat := 2 * a.nodes * b.nodes + 2

/-- Equality by value. -/
def equals (a b : Value) : Except Fault Bool :=
  if a.holdsReference || b.holdsReference then equalsWithin (pairDepth a b) a b else .ok (a.same b)

theorem equals_of_not_holdsReference {a b : Value} (ha : a.holdsReference = false)
    (hb : b.holdsReference = false) : a.equals b = .ok (a.same b) := by
  simp [equals, ha, hb]

/-! ## Crossing types -/

/-- The answer to an equality between values that must not cross types: integers and floats are
numbers, truth values are not. -/
def withinTypes (a b : Value) (equality : Except Fault Bool) : Except Fault Bool :=
  if a.isBool || b.isBool then .ok (a.isBool && b.isBool && a.same b)
  else if a.isNumber && b.isNumber then .ok (a.same b)
  else if a.typeName == b.typeName then equality
  else .ok false

/-- Equality without crossing types. -/
def identical (a b : Value) : Except Fault Bool := withinTypes a b (a.equals b)

/-- Whether a value is strictly equal to one of the candidates. -/
def isAmong (candidates : List Value) (v : Value) : Except Fault Bool :=
  candidates.anyM fun candidate => candidate.identical v

/-! ## Items of one container

Two items of one container may be one and the same container, and are equal then without a walk. -/

/-- Equality of what stands at two places of one value, walking at most so deep. -/
def equalsInside (whole : Value) : (depth : Nat) → Place → Place → Except Fault Bool
  | 0, _, _ => .error .endlessComparison
  | depth + 1, p, q =>
    let pairs (count : Nat) : Except Fault Bool :=
      (List.range count).allM fun i =>
        equalsInside whole depth (whole.placeOfChild p i) (whole.placeOfChild q i)
    if p == q then .ok true
    else
      match whole.at? p, whole.at? q with
      | some (.list xs), some (.list ys) =>
        if xs.length == ys.length then pairs xs.length else .ok false
      | some (.tuple xs), some (.tuple ys) => do
        return (← pairs (min xs.length ys.length)) && xs.length == ys.length
      | some (.map xs), some (.map ys) =>
        if xs.length == ys.length then
          xs.zipIdx.allM fun ((key, _), i) =>
            match ys.findIdx? fun (k, _) => k.same key with
            | none => .ok false
            | some j => equalsInside whole depth (whole.placeOfChild q j) (whole.placeOfChild p i)
        else .ok false
      | some a, some b => .ok (a.same b)
      | _, _ => .ok false

/-- Strict equality of two items of one value, each given with its place. -/
def identicalInside (whole : Value) (a b : Place × Value) : Except Fault Bool :=
  withinTypes a.2 b.2 (equalsInside whole (pairDepth whole whole) a.1 b.1)

/-- Strict equality of two items that may be copies of one container. -/
def identicalOrCopy (a b : Value) : Except Fault Bool :=
  withinTypes a b (if a.same b then .ok true else a.equals b)

/-- Drops everything that equals something earlier, after what is already `kept`. -/
def dropEqual {α : Type} (equal : α → α → Except Fault Bool) (kept : List α) :
    List α → Except Fault (List α)
  | [] => .ok kept
  | x :: rest => do
    if ← kept.anyM fun y => equal y x then dropEqual equal kept rest
    else dropEqual equal (kept ++ [x]) rest

/-- Whether a value holds references and its items are what stands at places in it. -/
def hasPlacedItems (whole : Value) : Bool :=
  match whole with
  | .list _ | .tuple _ => whole.holdsReference
  | _ => false

/-- The first of every class of strictly equal items of a value, whose items are given. -/
def distinct (whole : Value) (items : List Value) : Except Fault (List Value) := do
  if whole.hasPlacedItems then
    let placed := items.mapIdx fun i item => (whole.placeOfChild [] i, item)
    return (← dropEqual (identicalInside whole) [] placed).map (·.2)
  else dropEqual identical [] items

/-- Whether no two values of the list are strictly equal, `seen` included. -/
def allDistinct (seen : List Value) : List Value → Except Fault Bool
  | [] => .ok true
  | v :: rest => do
    if ← seen.anyM fun other => v.identicalOrCopy other then return false
    else allDistinct (seen ++ [v]) rest

end Attest.Value
