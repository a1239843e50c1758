import Attest.Coercion
import Attest.Combinator
import Attest.Composite
import Attest.Question

/-!
# The meaning of steps

Every step denotes a program in a world. The meaning follows the syntax: each constructor is a
combinator on the programs of its parts.
-/

namespace Attest

/-- A pure outcome as a program on the first argument. -/
def Program.pure (f : Value → Except Fault Value) : Program := fun args =>
  match f (firstArgument args) with
  | .ok v => Call.returned v
  | .error e => Call.raised (.fault e)

/-- The message of a choice that found nothing. -/
def unionMessage (message : Value) : Value :=
  messageOr message "Value $\x7bgot\x7d did not match any of $\x7bcount\x7d alternatives"

mutual

/-- What a call of something does. -/
def Callable.program (w : World) : Callable → Program
  | .function f => w.call f
  | .type t => fun args =>
    match Value.construct t args with
    | .ok v => Call.returned v
    | .error e => Call.raised (.fault e)
  | .step s => fun args => s.program w (if args.isEmpty then [.missing] else args)
  | .nothing type => fun _ => Call.raised (.fault (.notCallable type))

/-- The predicate of a check. -/
def Check.program (w : World) : Check → Program
  | .satisfies f => f.program w
  | c => Program.pure fun v => do return .bool (← c.holds w.now v)

/-- What a change does. -/
def Change.program (w : World) : Change → Program
  | .apply f => f.program w
  | c => Program.pure fun v => c.applied v

/-- What stands in for a missing argument. -/
def Default.substitute (w : World) : Default → Program.Substitute
  | .none => .none
  | .value v => .value v
  | .produced f => .produced (f.program w)

/-- What a step does. -/
def Step.program (w : World) : Step → Program
  | .accept => fun args => Call.returned (firstArgument args)
  | .coerce kind message => fun args => Call.ofExcept (kind.coerce message (firstArgument args))
  | .call f => f.program w
  | .guarded s comparison => (s.program w).guarded comparison
  | .change c => c.program w
  | .check c message expected comparison =>
    Program.satisfying (c.program w) message expected comparison
  | .andThen s t => (s.program w).andThen (t.program w)
  | .optional s default => (s.program w).optional (default.substitute w)
  | .union alternatives message => Program.union (Step.programs w alternatives) (unionMessage message)
  | .fields mode message entries => Program.fields mode message (Step.fieldPrograms w entries)
  | .elements message element => Program.elements message (element.program w)
  | .inside path s => (s.program w).inside path

def Step.programs (w : World) : List Step → List Program
  | [] => []
  | s :: rest => s.program w :: Step.programs w rest

def Step.fieldPrograms (w : World) : List (Value × Step) → List (Value × Program)
  | [] => []
  | (key, s) :: rest => (key, s.program w) :: Step.fieldPrograms w rest

end

/-! ## Calling validators -/

/-- The outcome of a call that does not raise failures: a failure, or a value. -/
structure Verdict where
  failure : Option Failure
  /-- The value; missing if there is a failure. -/
  value : Value

namespace Verdict

def success (v : Value) : Verdict := ⟨none, v⟩

def ofFailure (f : Failure) : Verdict := ⟨some f, .missing⟩

def isValid (v : Verdict) : Bool := v.failure.isNone

end Verdict

namespace Validator

/-- Judges a list of arguments; none at all counts as one that is missing. -/
def call (v : Validator) (w : World) : Program := fun args =>
  v.step.program w (if args.isEmpty then [.missing] else args)

/-- How a validator is shown. -/
def shown (v : Validator) : String := v.kind.shown

/-- The name of the validator as a plain function. -/
def functionName (v : Validator) : String := Text.lower v.kind.className ++ "_call"

/-- The description of the validator as a plain function. -/
def functionDoc (v : Validator) : String := "Validate input with " ++ v.shown ++ "."

/-- The mistake of judging at once what can only be judged later. -/
def notImmediate (v : Validator) : Raised :=
  .setup ⟨.async,
    "safe_call() used on an asynchronous validator; use safe_call_async() instead",
    [(.text "validator", .text v.shown)]⟩

/-- Judges without raising failures. A promised answer is dropped, which is a mistake. -/
def callSafely (v : Validator) (w : World) (args : List Value) : Call Verdict :=
  let c := v.call w args
  match c.answer with
  | .returned a => ⟨c.events, .returned (.success a)⟩
  | .raised (.failure f) => ⟨c.events, .returned (.ofFailure f)⟩
  | .raised r => ⟨c.events, .raised r⟩
  | .promised _ _ => ⟨c.discard, .raised v.notImmediate⟩

/-- Judges without raising failures, later in any case. -/
def callSafelyLater (v : Validator) (w : World) (args : List Value) : Call Verdict :=
  let p := (v.call w args).awaited
  let outcome := match p.outcome with
    | .ok a => .ok (.success a)
    | .error (.failure f) => .ok (.ofFailure f)
    | .error r => .error r
  ⟨[], .promised [] ⟨p.work, outcome⟩⟩

end Validator

end Attest
