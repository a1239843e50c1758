import Attest.Call

/-!
# Pipelines

A value, or the answer of a call, passed through one function after the other; and several promises
worked on side by side.

* `Call.stages`: what each function of a pipeline makes of the answer before it. A function that
  raises at once ends the pipeline; once an answer is promised, nothing runs until the last one is
  waited for.
* `Call.gather`: the outcomes of several promised answers, whatever becomes of the others.
-/

namespace Attest

namespace Call

/-- The calls of a pipeline: the first one, and one for each function that was reached. -/
def stages (c : Call Value) : List Program → List (Call Value)
  | [] => [c]
  | p :: rest =>
    match c.answer with
    | .raised _ => [c]
    | _ => c :: (c.proceed fun v => p [v]).stages rest

/-- The last call of a pipeline. -/
def through (c : Call Value) (functions : List Program) : Call Value :=
  functions.foldl (fun c p => c.proceed fun v => p [v]) c

/-- Whether the answer is promised, for each call of a pipeline that has not raised at once. -/
def pending (c : Call Value) (functions : List Program) : List Bool :=
  (c.stages functions).filterMap fun c =>
    match c.answer with
    | .raised _ => none
    | _ => some c.isPromised

/-- The promise that a call has made, if it has. -/
def promise? {α : Type} (c : Call α) : Option (Promise α) :=
  match c.answer with
  | .promised _ p => some p
  | _ => none

/-- The promises that calls have made, one after the other, where they have; what is raised at once
ends the list. -/
def inTurn {α : Type} : List (Call α) → Call (List (Option (Promise α)))
  | [] => returned []
  | c :: rest =>
    match c.answer with
    | .raised r => ⟨c.events, .raised r⟩
    | _ => ((inTurn rest).next fun more => returned (c.promise? :: more)).after c.events

/-- Whether an outcome is a cancellation. -/
def isCancelled {α : Type} : Except Raised α → Bool
  | .error .cancelled => true
  | _ => false

/-- Works on promises side by side. A cancellation among the outcomes is raised in the end. -/
def sideBySide {α : Type} (ps : List (Promise α)) : Promise (List (Except Raised α)) :=
  let outcomes := ps.map (·.outcome)
  ⟨.fork (ps.map (·.work)) .done,
    if outcomes.any isCancelled then .error .cancelled else .ok outcomes⟩

/-- The promise that is broken because an answer among others was none: the work before it has
begun. -/
def unpromised {α : Type} (answers : List (Option (Promise α))) :
    Promise (List (Except Raised α)) :=
  let begun := (answers.takeWhile Option.isSome).filterMap id
  ⟨Work.ofEvents (begun.flatMap (·.work.opening)) .done,
    .error (.fault (.badCall "a promised answer is required"))⟩

/-- Waits for the answers of calls, all of which must be promised. -/
def gather {α : Type} (calls : List (Call α)) : Call (List (Except Raised α)) :=
  (inTurn calls).next fun answers =>
    ⟨[], .promised []
      (if answers.all Option.isSome then sideBySide (answers.filterMap id) else unpromised answers)⟩

end Call

end Attest
