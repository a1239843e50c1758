import Attest.Value.Strict

/-!
# Order

Which values can be compared by order, and how. Numbers compare exactly across types; texts by code
point; sequences by the first items that differ; sets by inclusion; moments and times only when both
have an offset or neither has.
-/

namespace Attest.Value

/-- The fault of comparing two values that have no order. -/
def noOrder (r : Relation) (a b : Value) : Fault :=
  .unordered r a.qualifiedTypeName b.qualifiedTypeName

/-- The order of two lists of comparable items. -/
def compareLists {α : Type} [Ord α] : List α → List α → Ordering
  | [], [] => .eq
  | [], _ :: _ => .lt
  | _ :: _, [] => .gt
  | x :: xs, y :: ys => (compare x y).then (compareLists xs ys)

/-- The relation between values that hold no other values. -/
def relateAtoms (r : Relation) (a b : Value) : Except Fault Bool :=
  match a.asNumber?, b.asNumber? with
  | some x, some y => .ok ((x.compare? y).any r.holds)
  | _, _ =>
    match a.asText?, b.asText? with
    | some s, some t => .ok (r.holds (compareLists s.toList t.toList))
    | _, _ =>
      match a, b with
      | .bytes s, .bytes t => .ok (r.holds (compareLists s t))
      | .moment m, .moment n =>
        match m.compare? n with
        | some o => .ok (r.holds o)
        | none => .error .mixedMoments
      | .moment _, .date _ | .date _, .moment _ => .error .momentAgainstDate
      | .date d, .date e => .ok (r.holds (d.compare e))
      | .time s, .time t =>
        match s.compare? t with
        | some o => .ok (r.holds o)
        | none => .error .mixedTimes
      | _, _ => .error (noOrder r a b)

/-- Inclusion of sets. -/
def relateSets (r : Relation) (xs ys : List Value) : Bool :=
  match r with
  | .less => allAmong xs ys && xs.length < ys.length
  | .atMost => allAmong xs ys
  | .greater => allAmong ys xs && ys.length < xs.length
  | .atLeast => allAmong ys xs

/-- The relation of the first items that differ, or of the lengths. -/
def relateItems (r : Relation) (related : Value → Value → Except Fault Bool) :
    List Value → List Value → Except Fault Bool
  | [], ys => .ok (r.holds (compare 0 ys.length))
  | xs@(_ :: _), [] => .ok (r.holds (compare xs.length 0))
  | x :: xs, y :: ys => do if ← x.equals y then relateItems r related xs ys else related x y

/-- Whether a relation holds between two values, walking at most so deep. -/
def relateWithin (r : Relation) : (depth : Nat) → Value → Value → Except Fault Bool
  | 0, _, _ => .error .endlessComparison
  | depth + 1, a, b =>
    match a, b with
    | .list _, .list _ | .tuple _, .tuple _ => relateItems r (relateWithin r depth) a.items b.items
    | .set xs, .set ys => .ok (relateSets r xs ys)
    | _, _ => relateAtoms r a b

/-- Whether a relation holds between two values. -/
def relate (r : Relation) (a b : Value) : Except Fault Bool := relateWithin r (pairDepth a b) a b

/-- The number of items, characters or bytes. -/
def length (v : Value) : Except Fault Nat :=
  match v.asText? with
  | some s => .ok s.length
  | none =>
    match v with
    | .bytes bs => .ok bs.length
    | .list items | .tuple items | .set items => .ok items.length
    | .map entries => .ok entries.length
    | _ => .error (.noLength v.qualifiedTypeName)

/-- The items that a walk through a value meets: the keys of a map, the characters of a text. -/
def iterate (v : Value) : Except Fault (List Value) :=
  match v.asText? with
  | some s => .ok (s.toList.map fun c => .text (String.ofList [c]))
  | none =>
    match v with
    | .list _ | .tuple _ | .set _ => .ok v.items
    | .map entries => .ok (entries.map (·.1))
    | .bytes bs => .ok (bs.map fun b => .int b.toNat)
    | _ => .error (.notIterable v.qualifiedTypeName)

end Attest.Value
