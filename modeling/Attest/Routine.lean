import Attest.Call
import Attest.Value.Multiple

/-!
# Routines

User functions described by plain data: what a function makes of its arguments, the name under which
its calls are traced, and whether it answers at once or later. A world can be made of a list of
them.

* `Job.outcome`: what comes of a job; it depends on nothing but the arguments.
* `World.ofRoutines`: the world in which a function's number is its place in the list.
-/

namespace Attest

/-- What a routine does with its arguments, the first of which counts for most. -/
inductive Job where
  | identity
  | constant (v : Value)
  /-- The list of all arguments. -/
  | arguments
  | isMissing
  | increment
  | double
  | inverse
  | isEven
  | exceeds (bound : Value)
  | upper
  | toInt
  /-- The value under a key. -/
  | lookup (key : Value)
  | raise (r : Raised)
  /-- Fails with a failure of its own, made from a template and named values. -/
  | fail (template : Value) (named : List (Value × Value))

/-- What is raised under a name: mistakes and cancellations by their names, anything else as a fault
with that name. The text of a failed lookup is quoted. -/
def Raised.named (name message : String) : Raised :=
  let kinds : List SetupKind := [.guard, .schema, .async, .notFound, .operation]
  match kinds.find? fun kind => kind.name == name with
  | some kind => .setup ⟨kind, message, []⟩
  | none =>
    if name == "CancelledError" then .cancelled
    else if name == "ValidationError" then
      fail { template := if message.isEmpty then .null else .text message }
    else if name == "KeyError" && !message.isEmpty then .fault (.raised name (Text.quoted message))
    else .fault (.raised name message)

namespace Job

/-- The fault of an argument that a routine is not made for. -/
def unfit (wanted : String) : Raised := .fault (.raised "TypeError" ("not " ++ wanted))

/-- An operation on numbers, which truth values are not. -/
def onNumber {α : Type} (f : Value → Except Fault α) (v : Value) : Except Raised α :=
  if v.isNumber then (f v).mapError .fault else .error (unfit "a number")

/-- The value under a key of a map. -/
def valueAt (key v : Value) : Except Raised Value :=
  match v.entries? with
  | none => .error (unfit "an object")
  | some entries =>
    match key.unhashable?, Value.lookup key entries with
    | some culprit, _ => .error (.fault (.unhashable culprit))
    | none, some found => .ok found
    | none, none =>
      match key.shown with
      | .ok text => .error (.fault (.raised "KeyError" text))
      | .error e => .error (.fault e)

/-- What comes of a job on a list of arguments. -/
def outcome (args : List Value) : Job → Except Raised Value :=
  let v := firstArgument args
  fun
  | identity => .ok v
  | constant w => .ok w
  | arguments => .ok (.list args)
  | isMissing => .ok (.bool v.isMissing)
  | increment => onNumber (·.plusInt 1) v
  | double => onNumber (·.timesInt 2) v
  | inverse => onNumber Value.inverse v
  | isEven => do return .bool (← onNumber (·.isMultiple (.int 2)) v)
  | exceeds bound => do return .bool (← onNumber (·.relate .greater bound) v)
  | upper =>
    match v.asText? with
    | some s => .ok (.text (Text.upper s))
    | none => .error (unfit "a string")
  | toInt =>
    match v.asText? with
    | some _ => do return .int (← v.toInt.mapError .fault)
    | none => .error (unfit "a string")
  | lookup key => valueAt key v
  | raise r => .error r
  | fail template named =>
    match Notice.Parts.ofNamed template named with
    | .ok p => .error (Raised.fail p)
    | .error e => .error (.fault e)

end Job

/-- A user function. -/
structure Routine where
  job : Job
  /-- The name under which calls are traced, if they are. -/
  label : Option String
  /-- For an answer that is promised for later, how often the work on it pauses. -/
  pauses : Option Nat

def Routine.reply (r : Routine) (args : List Value) : Reply :=
  ⟨r.label, r.pauses, r.job.outcome args⟩

/-- The world of a list of routines. A number beyond the list is a function that answers its
argument. -/
def World.ofRoutines (routines : List Routine) (now : Calendar.Moment) : World where
  reply f args := (routines.getD f.index ⟨.identity, none, none⟩).reply args
  now := now

end Attest
