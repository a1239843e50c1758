import Attest.Value.Types

/-!
# Equality

Equality by value: numbers are compared as numbers, whatever their type, and containers item by
item. It decides when two keys are one. Values that hold themselves are compared in
`Attest.Value.Strict`.
-/

namespace Attest.Value

open Number (Extended)

/-- The point that a number or a truth value stands for. -/
def asNumber? : Value → Option Extended
  | .bool b => some (.finite ⟨if b then 1 else 0, 0⟩)
  | .int n => some (.finite ⟨n, 0⟩)
  | .float x => some (Number.toExtended x)
  | .nan _ => some .undefined
  | _ => none

/-- Whether two values are one and the same thing of a kind that is equal only to itself. -/
def isOne : Value → Value → Bool
  | .nan i, .nan j | .object i, .object j => i == j
  | .function f, .function g => f == g
  | .validator _ _ (some i), .validator _ _ (some j) => i == j
  | _, _ => false

/-- Equality of values that hold no other values. -/
def sameAtom (a b : Value) : Bool :=
  match a.asNumber?, b.asNumber? with
  | some x, some y => x.compare? y == some .eq || isOne a b
  | _, _ =>
    match a.asText?, b.asText? with
    | some s, some t => s == t
    | _, _ =>
      match a, b with
      | .missing, .missing | .null, .null => true
      | .bytes s, .bytes t => s == t
      | .moment m, .moment n => m.compare? n == some .eq
      | .date d, .date e => d == e
      | .time s, .time t => s.compare? t == some .eq
      | .pattern p, .pattern q => p.source == q.source && p.options == q.options
      | .type t, .type u => t == u
      | .up m, .up n => m == n
      | _, _ => isOne a b

mutual

/-- Equality by value. -/
def same : Value → Value → Bool
  | .list xs, .list ys => sameAll xs ys
  | .tuple xs, .tuple ys => sameAll xs ys
  | .set xs, .set ys => xs.length == ys.length && allAmong xs ys
  | .map xs, .map ys => xs.length == ys.length && entriesAmong xs ys
  | a, b => sameAtom a b

/-- Equality item by item. -/
def sameAll : List Value → List Value → Bool
  | [], [] => true
  | x :: xs, y :: ys => x.same y && sameAll xs ys
  | _, _ => false

/-- Every item of the first list has an equal one in the second. -/
def allAmong : List Value → List Value → Bool
  | [], _ => true
  | x :: xs, ys => (ys.any fun y => x.same y) && allAmong xs ys

/-- Every entry of the first list has one with an equal key and an equal value in the second. -/
def entriesAmong : List (Value × Value) → List (Value × Value) → Bool
  | [], _ => true
  | (k, v) :: xs, ys => (ys.any fun (l, w) => k.same l && v.same w) && entriesAmong xs ys

end

/-- An integer or a float. -/
def isNumber : Value → Bool
  | .int _ | .float _ | .nan _ => true
  | _ => false

def isBool : Value → Bool
  | .bool _ => true
  | _ => false

/-! ## Maps by key -/

/-- The value under a key. -/
def lookup (key : Value) (entries : List (Value × Value)) : Option Value :=
  (entries.find? fun (k, _) => k.same key).map (·.2)

def hasKey (key : Value) (entries : List (Value × Value)) : Bool :=
  entries.any fun (k, _) => k.same key

/-- Sets the value under a key: in its place if the key is there, else at the end. -/
def insert (key value : Value) : List (Value × Value) → List (Value × Value)
  | [] => [(key, value)]
  | (k, v) :: rest => if k.same key then (k, value) :: rest else (k, v) :: insert key value rest

/-- The map that results from setting the pairs one after the other. -/
def ofPairs (pairs : List (Value × Value)) : Value :=
  .map (pairs.foldl (fun entries (k, v) => insert k v entries) [])

/-- A map with texts as keys. -/
def record (entries : List (String × Value)) : Value :=
  .map (entries.map fun (k, v) => (.text k, v))

mutual

/-- The type of the first part that cannot be in a key, if there is one. -/
def unhashable? : Value → Option String
  | .list _ => some "list"
  | .set _ => some "set"
  | .map _ => some "dict"
  | .tuple items => unhashableAmong? items
  | _ => none

def unhashableAmong? : List Value → Option String
  | [] => none
  | v :: rest => (unhashable? v).or (unhashableAmong? rest)

end

/-! ## Truth -/

/-- Whether a value counts as true. -/
def isTruthy : Value → Bool
  | .missing | .null => false
  | .bool b => b
  | .int n => n != 0
  | .float x => Number.isNan x || !(Number.mantissa x == 0)
  | .text s => !s.isEmpty
  | .bytes bs => !bs.isEmpty
  | .list items | .tuple items | .set items => !items.isEmpty
  | .map entries => !entries.isEmpty
  | _ => true

end Attest.Value
