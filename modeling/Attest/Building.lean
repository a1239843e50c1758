import Attest.Pattern.Parser
import Attest.Run

/-!
# Building validators

A validator is built from a kind by chaining: every method answers a new validator and leaves the
old one as it was. Bad arguments are raised at once; what a built validator raises is another
matter. The log is written while building, too.
-/

namespace Attest

/-- A step of building: it may raise, and it may write to the log. -/
abbrev Build := ExceptT Raised (StateM (List LogLine))

namespace Build

/-- Writes a line to the log. -/
def log (level : LogLevel) (text : String) : Build Unit :=
  fun lines => (.ok (), lines ++ [⟨level, text⟩])

/-- What has been decided without the log. -/
def ofExcept {α : Type} (x : Except Raised α) : Build α := fun lines => (x, lines)

/-- What may be a fault. -/
def ofFault {α : Type} (x : Except Fault α) : Build α := fun lines =>
  match x with
  | .ok a => (.ok a, lines)
  | .error e => (.error (.fault e), lines)

/-- The text of a value inside the message of a mistake. -/
def plain (v : Value) : Build String := ofFault v.plain

/-- Refuses named values of which one has a name that is no text, or the name of what takes them. -/
def requireNames (values : List (Value × Value)) : Except Raised Unit :=
  if values.any fun (key, _) => key.same (.text "self") then
    .error (.fault (.badCall "the name self is taken"))
  else if values.all fun (key, _) => key.asText?.isSome then .ok ()
  else .error (.fault (.badCall "names must be texts"))

/-- Raises a schema mistake. -/
def schemaError {α : Type} (message : String) (context : List (String × Value)) : Build α :=
  throw (Raised.schema message context)

end Build

/-- What a value is when it is called; a value that cannot be called is noticed only then. -/
def Value.toCallable (v : Value) : Callable := v.asCallable?.getD (.nothing v.qualifiedTypeName)

/-- The step of calling something, with other trouble turned into failures. -/
def Step.ofFunction (f : Callable) (comparison : Value) : Step := .guarded (.call f) comparison

namespace Validator

/-- Accepts what a kind accepts. -/
def create (kind : Kind) (message : Value) : Validator :=
  match kind with
  | .any => ⟨.any, .accept⟩
  | kind => ⟨kind, .coerce kind message⟩

/-- A validator from a function whose trouble becomes failures. -/
def ofFunction (kind : Kind) (f : Callable) (comparison : Value) : Validator :=
  ⟨kind, Step.ofFunction f comparison⟩

/-- A validator from a value: a validator stays, anything else is taken as a function. -/
def ofValue (v : Value) : Validator :=
  match v with
  | .validator kind step _ => ⟨kind, step⟩
  | v => ofFunction .any v.toCallable (.text "custom")

/-- One step more. -/
def andThen (v : Validator) (next : Step) : Validator := ⟨v.kind, .andThen v.step next⟩

/-- One check more. -/
def check (v : Validator) (c : Check) (message : Value) (expected : Value)
    (comparison : String) : Validator :=
  v.andThen (.check c message expected comparison)

/-- A check of the comparison `test` that has a message of its own. -/
def test (v : Validator) (c : Check) (message : Value) (wording : String)
    (expected : Value) : Validator :=
  v.check c (messageOr message wording) expected "test"

/-- Missing input is answered as it is, or a default is put in its place and judged. -/
def optional (v : Validator) (default : Value) : Validator :=
  let default : Default := match default.asCallable?, default with
    | some f, _ => .produced f
    | none, .missing => .none
    | none, d => .value d
  ⟨v.kind, .optional v.step default⟩

/-! ## Membership -/

/-- The values that a check of membership compares with: at least one that is not null. -/
def candidates (values : Value) (argument : String) : Except Raised (List Value) :=
  let message := "Argument \"" ++ argument ++ "\" must be a non-empty list"
  let mistyped := Raised.schema message
    [("argument", .text argument), ("type", .text values.typeName)]
  match values with
  | .text _ | .bytes _ | .mode _ => .error mistyped
  | _ =>
    match values.iterate with
    | .error _ => .error mistyped
    | .ok items => do
      let found ← (values.distinct items).mapError .fault
      if found.all Value.isNullish then
        .error (Raised.schema message [("argument", .text argument)])
      else .ok found

def isIn (v : Validator) (values message : Value) : Except Raised Validator := do
  let found ← candidates values "values"
  let wording := messageOr message "Expected value to be in $\x7bexpected\x7d, but got $\x7bgot\x7d"
  return v.check (.among found) wording (.list found) "in"

def notIn (v : Validator) (values message : Value) : Except Raised Validator := do
  let found ← candidates values "values"
  let wording :=
    messageOr message "Expected value not to be in $\x7bexpected\x7d, but got $\x7bgot\x7d"
  return v.check (.notAmong found) wording (.list found) "notIn"

/-! ## Texts -/

/-- Raises a mistake if a length is below zero. -/
def refuseNegative (what : String) (length : Value) : Build Unit := do
  if ← Build.ofFault (length.relate .less (.int 0)) then
    Build.schemaError (what ++ " cannot be negative: " ++ (← Build.plain length)) []

def textMinLength (v : Validator) (length message : Value) : Build Validator := do
  refuseNegative "min length" length
  return v.test (.lengthCompares .atLeast length) message
    "Expected string to have at least $\x7bexpected\x7d characters, got $\x7bgot\x7d" length

def textMaxLength (v : Validator) (length message : Value) : Build Validator := do
  refuseNegative "max length" length
  return v.test (.lengthCompares .atMost length) message
    "Expected string to have at most $\x7bexpected\x7d characters, got $\x7bgot\x7d" length

def textLength (v : Validator) (length message : Value) : Build Validator := do
  refuseNegative "length" length
  return v.test (.lengthIs length) message
    "Expected string to have exactly $\x7bexpected\x7d characters, got $\x7bgot\x7d" length

/-- A pattern, or the source of one. -/
def toPattern (v : Value) : Build (Option Pattern) :=
  match v with
  | .pattern p => return some p
  | _ =>
    match v.asText? with
    | none => return none
    | some source => return some (← Build.ofFault (Pattern.compile source false))

def hasPattern (v : Validator) (p : Pattern) (message : Value) (wording : String) :
    Validator :=
  v.test (.hasMatch p) message wording (.pattern p)

def pattern (v : Validator) (source message : Value) : Build Validator := do
  let wording := "Expected value to match pattern $\x7bexpected\x7d, got $\x7bgot\x7d"
  match ← toPattern source with
  | some p => return v.hasPattern p message wording
  | none =>
    return v.test (.impossible (.noAttribute source.owner "search")) message wording source

/-- A pattern of this library, by its source. -/
def knownPattern (source : String) (ignoreCase : Bool) : Pattern :=
  (Pattern.compile source ignoreCase).toOption.getD ⟨.text source, Pattern.Options.default, .empty, 0⟩

def emailPattern : Pattern :=
  knownPattern
    "^[a-zA-Z0-9_+&*-]+(?:\\.[a-zA-Z0-9_+&*-]+)*@(?:[a-zA-Z0-9-]+\\.)+[a-zA-Z]\x7b2,7\x7d$" false

def urlPattern : Pattern := knownPattern "^https?://[^\\s/$.?#].[^\\s]*$" true

def uuidPattern : Pattern :=
  knownPattern ("^[0-9a-f]\x7b8\x7d-[0-9a-f]\x7b4\x7d-[1-5][0-9a-f]\x7b3\x7d-" ++
    "[89ab][0-9a-f]\x7b3\x7d-[0-9a-f]\x7b12\x7d$") true

def ipv4Pattern : Pattern :=
  knownPattern "^((25[0-5]|(2[0-4]|1\\d|[1-9]|)\\d)(\\.(?!$)|$))\x7b4\x7d$" false

/-! ## Ranges -/

/-- A check against two bounds, the first of which must not be above the second. -/
def range (v : Validator) (low high message : Value) : Build Validator := do
  if ← Build.ofFault (low.relate .greater high) then
    let low ← Build.plain low
    let high ← Build.plain high
    Build.schemaError ("min (" ++ low ++ ") cannot be greater than max (" ++ high ++ ")") []
  return v.test (.between low high) message
    "Expected value ($\x7bgot\x7d) to be between $\x7bexpected\x7d" (.list [low, high])

def multipleOf (v : Validator) (base message : Value) : Build Validator := do
  if base.same (.int 0) then Build.schemaError "multiple_of base cannot be zero" []
  return v.test (.multipleOf base) message
    "Expected value ($\x7bgot\x7d) to be a multiple of $\x7bexpected\x7d" base

def power (v : Validator) (exponent : Value) : Build Validator := do
  if ← Build.ofFault (exponent.relate .less (.int 0)) then
    Build.schemaError ("Exponent cannot be negative: " ++ (← Build.plain exponent))
      [("exponent", exponent)]
  return v.andThen (.change (.power exponent))

/-! ## Lists and records -/

/-- The message about the length of a list, worded with the length itself. -/
def listLengthMessage (bound : String) (length message : Value) : Build Value := do
  if message.isTruthy then return message
  let plural := if length.same (.int 1) then "" else "s"
  return .text ("Expected array to have at " ++ bound ++ " " ++ (← Build.plain length) ++ " element" ++
    plural)

def listMinLength (v : Validator) (length message : Value) : Build Validator := do
  let wording ← listLengthMessage "least" length message
  return v.check (.lengthCompares .atLeast length) wording length "test"

def listMaxLength (v : Validator) (length message : Value) : Build Validator := do
  let wording ← listLengthMessage "most" length message
  return v.check (.lengthCompares .atMost length) wording length "test"

def hasKeys (v : Validator) (required message : Value) : Build Validator := do
  let keys ← Build.ofFault required.iterate
  return v.test (.hasKeys keys) message "Expected object to have keys: $\x7bexpected\x7d" (.list keys)

/-- An ordered choice of validators and functions. -/
def union (alternatives message : Value) : Build Validator := do
  if !alternatives.isTruthy then
    Build.schemaError "At least one validator must be provided to union" []
  let alternatives ← Build.ofFault alternatives.iterate
  return ⟨.any, .union (alternatives.map fun v => (ofValue v).step) message⟩

end Validator

end Attest
