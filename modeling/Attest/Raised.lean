import Attest.Failure

/-!
# What is raised

Everything that can end a computation early: a failure of validation, a mistake in the way a
validator was set up or used, any other fault, or a cancellation, which nothing catches.

* `Raised.promote`: trouble inside a validator becomes a failure that is worded by its reason.
-/

namespace Attest

/-- The kinds of mistakes in setting up or using validators. -/
inductive SetupKind where
  | guard
  | schema
  | async
  | notFound
  | operation
  deriving DecidableEq, Repr

def SetupKind.name : SetupKind → String
  | .guard => "GuardError"
  | .schema => "SchemaError"
  | .async => "AsyncValidatorError"
  | .notFound => "NotFoundError"
  | .operation => "OperationError"

/-- A mistake, with what there is to know about it. -/
structure SetupError where
  kind : SetupKind
  message : String
  context : List (Value × Value)

/-- A mistake of which the details are the context if there are any, else what was given as
context. -/
def SetupError.make (kind : SetupKind) (message context details : Value) :
    Except Fault SetupError := do
  let context := if details.isTruthy then details else if context.isTruthy then context else .map []
  match context.entries? with
  | some entries => return ⟨kind, ← message.plain, entries⟩
  | none => throw (.noAttribute context.owner "items")

inductive Raised where
  | failure (f : Failure)
  | setup (e : SetupError)
  | fault (f : Fault)
  | cancelled

namespace Raised

/-- The reason to show: the text, or the name where there is no text. -/
def reason : Raised → String
  | .failure f => if f.message.isEmpty then "ValidationError" else f.message
  | .setup e => if e.message.isEmpty then e.kind.name else e.message
  | .fault f => f.reason
  | .cancelled => "CancelledError"

/-- A schema mistake with a context of named values. -/
def schema (message : String) (context : List (String × Value)) : Raised :=
  .setup ⟨.schema, message, context.map fun (k, v) => (.text k, v)⟩

/-- A failure as what is raised, or the fault of making it. -/
def ofFailure : Except Fault Failure → Raised
  | .ok f => .failure f
  | .error e => .fault e

/-- A failure without parts. -/
def fail (p : Notice.Parts) : Raised := ofFailure (Failure.make p [])

/-- What becomes of trouble that deferred work raises: the end of an iteration is no longer one. -/
def inWork : Raised → Raised
  | .fault (.raised name text) =>
    if name == "StopIteration" then .fault (.raised "RuntimeError" "coroutine raised StopIteration")
    else .fault (.raised name text)
  | r => r

/-- Turns trouble into a failure about the value that met it. Failures and cancellations stay. -/
def promote (got comparison : Value) : Raised → Raised
  | .failure f => .failure f
  | .cancelled => .cancelled
  | r => fail
    { template := .text "$\x7breason\x7d", got, comparison, extra := [("reason", .text r.reason)] }

end Raised

/-- The trouble that a value is the object of, if it is one. -/
def Value.trouble? : Value → Option Raised
  | .object ⟨_, .trouble t said⟩ => some (.fault (.raised t.name (troubleText t said)))
  | _ => none

end Attest
