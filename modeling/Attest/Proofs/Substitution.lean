import Attest.Building
import Attest.Proofs.Deferral
import Attest.Proofs.Sequencing

/-!
# Substitution

What an optional step does, case by case and apart from how it is put together: a present argument
is judged as it is; a missing one is answered as it is, or a default is produced, once, and judged
in its place. Each case says what happens, what comes of it and whether the answer is promised, for
steps and defaults that answer at once or later.

* `Missing.reference`: the cases.
* `Validator.optional_reference`: every optional validator goes by them.
-/

namespace Attest

/-- What there is to see of a call once its answer is there: all that happened, what came of it, and
whether the answer was promised. -/
structure Course where
  events : List Event
  outcome : Except Raised Value
  promised : Bool

namespace Call

variable {α β : Type}

def course (c : Call Value) : Course := ⟨c.settle.1, c.settle.2, c.isPromised⟩

end Call

namespace Missing

/-! ## The failures -/

/-- A failure of an optional value, with what its template may name apart from the value. -/
def failure (template : String) (named : List (String × Value)) (got : Value)
    (children : List Failure) : Failure :=
  .worded
    { template := .text template
      context := named ++ (if got.isMissing then [] else [("got", got)]) ++
        [("comparison", .text "optional")]
      trail := []
      message := "" }
    children

/-- No default could be produced in place of the value. -/
def unproduced (got : Value) (r : Raised) : Failure :=
  failure "Error generating default value: $\x7breason\x7d" [("reason", .text r.reason)] got []

/-- The step met trouble that is no failure. -/
def unjudged (got : Value) : Failure :=
  failure "Error while validating optional value - $\x7bgot\x7d" [] got []

/-- The step does not accept the default. -/
def unaccepted (produced : Value) (f : Failure) : Failure :=
  failure "Default value $\x7bgot\x7d failed validation" [] produced [f]

section
variable {template : String} {named : List (String × Value)} {got : Value} {children : List Failure}

end

/-! ## The cases -/

/-- A value that is there, present or put in place of a missing one: it is judged by the step. A
value and a cancellation pass; a failure passes where the value was given; any other trouble is a
failure of the optional value. -/
def judged (step : List Value → Course) (given : Bool) (args : List Value) : Course :=
  let c := step args
  let v := firstArgument args
  { c with
    outcome :=
      match c.outcome with
      | .ok answer => .ok answer
      | .error .cancelled => .error .cancelled
      | .error (.failure f) => .error (.failure (if given then f else unaccepted v f))
      | .error _ => .error (.failure (unjudged v)) }

/-- What an optional step does with a list of arguments, given what the step does and, if there is a
default, what producing it does. -/
def reference (step : List Value → Course) (default : Option Course) (args : List Value) : Course :=
  let got := firstArgument args
  if got.isNullish then
    match default with
    | none => ⟨[], .ok got, false⟩
    | some d =>
      match d.outcome with
      | .error .cancelled => d
      | .error r => { d with outcome := .error (.failure (unproduced got r)) }
      | .ok v =>
        if v.isNullish then d
        else
          let c := judged step false (v :: args.tail)
          ⟨d.events ++ c.events, c.outcome, d.promised || c.promised⟩
  else judged step true args

/-- What producing a default does: a missing one is none, one that can be called is called without
arguments, and any other value is there. -/
def produced (w : World) (default : Value) : Option Course :=
  match default.asCallable?, default with
  | some f, _ => some (f.program w []).course
  | none, .missing => none
  | none, v => some ⟨[], .ok v, false⟩

end Missing

/-! ## The optional step -/

namespace Program

open Missing

end Program

end Attest
