import Attest.Value.Basic

/-!
# Parts of values

Taking a part out of a value. References inside the part may lead to containers around it; then the
part is unfolded from its place in the whole, so that everything it leads to is there again, and a
reference stands wherever the walk comes back to a container that it is still inside of.

* `takenOut`: what stands at a place in a whole, as a value of its own.
* `takenOut_of_isClosed`: a part without references to the outside is taken out as it is.
-/

namespace Attest.Value

mutual

/-- The number of values inside a value, itself included. -/
def nodes : Value → Nat
  | .list items | .tuple items | .set items => nodesOfAll items + 1
  | .map entries => nodesOfEntries entries + 1
  | _ => 1

def nodesOfAll : List Value → Nat
  | [] => 0
  | v :: rest => nodes v + nodesOfAll rest

def nodesOfEntries : List (Value × Value) → Nat
  | [] => 0
  | (_, v) :: rest => nodes v + nodesOfEntries rest

end

mutual

/-- Whether a value holds a reference: a closed one that does holds itself. -/
def holdsReference : Value → Bool
  | .list items | .tuple items | .set items => someHoldsReference items
  | .map entries => someEntryHoldsReference entries
  | .up _ => true
  | _ => false

def someHoldsReference : List Value → Bool
  | [] => false
  | v :: rest => holdsReference v || someHoldsReference rest

def someEntryHoldsReference : List (Value × Value) → Bool
  | [] => false
  | (_, v) :: rest => holdsReference v || someEntryHoldsReference rest

end

mutual

/-- Whether all references inside a value are to the containers of the value itself, or to the
`depth` containers around it. -/
def isClosedIn (depth : Nat) : Value → Bool
  | .list items | .tuple items | .set items => areClosedIn (depth + 1) items
  | .map entries => entriesAreClosedIn (depth + 1) entries
  | .up n => n < depth
  | _ => true

def areClosedIn (depth : Nat) : List Value → Bool
  | [] => true
  | v :: rest => isClosedIn depth v && areClosedIn depth rest

def entriesAreClosedIn (depth : Nat) : List (Value × Value) → Bool
  | [] => true
  | (_, v) :: rest => isClosedIn depth v && entriesAreClosedIn depth rest

end

/-- Whether no reference leads out of a value. -/
def isClosed (v : Value) : Bool := v.isClosedIn 0

/-- A place in a value: the numbers of the items, or entries, that lead to it from the outside. -/
abbrev Place := List Nat

/-- The `i`-th item of a container, or the value of its `i`-th entry. -/
def child? (v : Value) (i : Nat) : Option Value :=
  match v with
  | .list items | .tuple items | .set items => items[i]?
  | .map entries => entries[i]?.map (·.2)
  | _ => none

/-- What stands at a place. -/
def at? (v : Value) : Place → Option Value
  | [] => some v
  | i :: place => (v.child? i).bind (·.at? place)

/-- Where the `i`-th child of the container at a place is, which is what a reference leads to. -/
def placeOfChild (whole : Value) (place : Place) (i : Nat) : Place :=
  match whole.at? (place ++ [i]) with
  | some (.up n) => place.take (place.length - n)
  | _ => place ++ [i]

/-- A container with its items, or the values of its entries, replaced. -/
def mapChildren (f : Nat → Value → Value) : Value → Value
  | .list items => .list (items.mapIdx f)
  | .tuple items => .tuple (items.mapIdx f)
  | .set items => .set (items.mapIdx f)
  | .map entries => .map (entries.mapIdx fun i (k, v) => (k, f i v))
  | v => v

/-- The value at a place, unfolded from there; `around` holds the places that the walk is inside of.
They are all different, so the walk goes no deeper than the whole has nodes. -/
def unfold (whole : Value) : (fuel : Nat) → (around : List Place) → Place → Value
  | 0, _, _ => .missing
  | fuel + 1, around, place =>
    let around := place :: around
    let meet (i : Nat) (v : Value) : Value :=
      if v.isClosed then v
      else
        let target := match v with
          | .up n => place.take (place.length - n)
          | _ => place ++ [i]
        match around.idxOf? target with
        | some n => .up n
        | none => unfold whole fuel around target
    ((whole.at? place).getD .missing).mapChildren meet

/-- What stands at a place in a whole, as a value of its own. A reference is what it leads to. -/
def takenOut (whole : Value) (place : Place) (v : Value) : Value :=
  if v.isClosed then v
  else
    let place := match v with
      | .up n => place.take (place.length - 1 - n)
      | _ => place
    unfold whole whole.nodes [] place

theorem takenOut_of_isClosed (whole : Value) (place : Place) {v : Value}
    (closed : v.isClosed = true) : whole.takenOut place v = v := by
  simp [takenOut, closed]

/-- The items of a list, a tuple or a set, as values of their own. -/
def items (v : Value) : List Value :=
  match v with
  | .list vs | .tuple vs | .set vs => vs.mapIdx fun i item => v.takenOut [i] item
  | _ => []

/-- The items of a list or a tuple. -/
def sequence? (v : Value) : Option (List Value) :=
  match v with
  | .list _ | .tuple _ => some v.items
  | _ => none

/-- The entries of a map, their values as values of their own. -/
def entries? (v : Value) : Option (List (Value × Value)) :=
  match v with
  | .map entries => some (entries.mapIdx fun i (k, item) => (k, v.takenOut [i] item))
  | _ => none

end Attest.Value
