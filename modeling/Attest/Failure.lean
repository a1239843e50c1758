import Attest.Trail
import Attest.Value.Affix
import Attest.Value.Order

/-!
# Failures

The outcome of judging a value that is not what it should be: a worded notice with the context that
its template may use, the trail to the value, and, for a failure of a whole, the failures of its
parts. A notice is worded anew whenever its trail, its key or the number of parts changes.
-/

namespace Attest

/-- The head of a failure: what is said, about what, and where. The template should be a text. -/
structure Notice where
  template : Value
  /-- What the template may name, apart from the trail and the number of parts. -/
  context : List (String × Value)
  trail : Trail
  message : String

/-- Whether a comparison has the name of a check that holds of all other values. -/
def isNegated (comparison : Value) : Except Fault Bool :=
  if comparison.isTruthy then comparison.hasAffix true (.text "not") else .ok false

/-- The template of a notice that was given none. -/
def defaultTemplate (got expected comparison : Value) : Except Fault String := do
  let negation := if ← isNegated comparison then "not " else ""
  return match expected.isMissing, got.isMissing with
  | false, false =>
    "Expected value " ++ negation ++ "to be $\x7bexpected\x7d, but got $\x7bgot\x7d"
  | false, true => "Expected value to " ++ negation ++ "be $\x7bexpected\x7d"
  | true, false => "Unexpected value: $\x7bgot\x7d"
  | true, true => "Validation failed"

namespace Notice

/-- Whether a name is one of those that a notice binds itself, whatever the context has under
them. -/
def isOwnName (name : String) : Bool := name == "path" || name == "count"

/-- The part of the context that the template can name. -/
def named (n : Notice) : List (String × Value) := n.context.filter fun b => !isOwnName b.1

/-- The variables of the template, for a failure with `count` parts. -/
def bindings (n : Notice) (count : Nat) : Except Fault (List (String × Value)) := do
  return [("path", .text (← n.trail.text)), ("count", .int count)] ++ n.named

/-- What the notice says with `count` parts. -/
def worded (n : Notice) (count : Nat) : Except Fault String := do
  Value.render n.template (← n.bindings count)

/-- The notice with its message brought up to date. -/
def refresh (n : Notice) (count : Nat) : Except Fault Notice := do
  return { n with message := ← n.worded count }

/-- The notice with more segments in front of its trail, not yet worded anew. -/
def under (outer : Trail) (n : Notice) : Notice := { n with trail := outer ++ n.trail }

/-- A part of the context. -/
def get? (n : Notice) (name : String) : Option Value := n.context.lookup name

/-- The notice with a key, unless it has one. -/
def withKey (key : Value) (n : Notice) : Notice :=
  if (n.get? "key").isSome then n else { n with context := n.context ++ [("key", key)] }

def got (n : Notice) : Value := (n.get? "got").getD .missing

def expected (n : Notice) : Value := (n.get? "expected").getD .missing

def comparison (n : Notice) : Value := (n.get? "comparison").getD .null

def key (n : Notice) : Value := (n.get? "key").getD .null

end Notice

/-- What a failure is made from. What is missing or null stays out of the context. -/
structure Notice.Parts where
  template : Value := .null
  got : Value := .missing
  expected : Value := .missing
  comparison : Value := .null
  key : Value := .null
  /-- The segments of the trail, as a list or as anything else that can be walked through. -/
  path : Value := .list []
  extra : List (String × Value) := []

namespace Notice.Parts

/-- The template, if one was given. -/
def template? (p : Parts) : Option Value :=
  match p.template with
  | .null => none
  | v => some v

/-- A part of the context, unless it is null. -/
def unlessNull (name : String) : Value → List (String × Value)
  | .null => []
  | v => [(name, v)]

/-- A part of the context, unless it is missing. -/
def unlessMissing (name : String) (v : Value) : List (String × Value) :=
  if v.isMissing then [] else [(name, v)]

/-- What the template may name, apart from the trail and the number of parts. -/
def context (p : Parts) : List (String × Value) :=
  p.extra ++ unlessMissing "got" p.got ++ unlessMissing "expected" p.expected ++
    unlessNull "comparison" p.comparison ++ unlessNull "key" p.key

/-- The notice made from its parts, not yet worded. -/
def notice (p : Parts) : Except Fault Notice := do
  let template ← match p.template? with
    | some v => pure v
    | none => do pure (Value.text (← defaultTemplate p.got p.expected p.comparison))
  return { template, context := p.context, trail := ← p.path.iterate, message := "" }

/-- The parts with another value for the part of a name; a name of none is one more variable. -/
def withNamed (p : Parts) (name : String) (v : Value) : Parts :=
  match name with
  | "got" => { p with got := v }
  | "expected" => { p with expected := v }
  | "comparison" => { p with comparison := v }
  | "key" => { p with key := v }
  | "path" => { p with path := v }
  | _ => { p with extra := p.extra ++ [(name, v)] }

/-- Adds named values to parts. Each name is a text and none of those `seen`; the template and the
failures below are not given by name. -/
def addNamed (p : Parts) (seen : List String) : List (Value × Value) → Except Fault Parts
  | [] => .ok p
  | (key, v) :: rest =>
    match key.asText? with
    | none => .error (.badCall "keywords must be strings")
    | some name =>
      if name == "self" || name == "message" then
        .error (.badCall
          ("ValidationError.__init__() got multiple values for argument '" ++ name ++ "'"))
      else if seen.contains name then
        .error (.badCall ("dataknobs_guard.exceptions.ValidationError() got multiple values for " ++
          "keyword argument '" ++ name ++ "'"))
      else addNamed (p.withNamed name v) (name :: seen) rest

/-- The parts of a failure from a template and from named values. -/
def ofNamed (template : Value) (named : List (Value × Value)) : Except Fault Parts :=
  addNamed { template } ["children"] named

end Notice.Parts

/-- A failure and the failures of its parts. -/
inductive Failure where
  | mk (notice : Notice) (children : List Failure)

namespace Failure

def notice : Failure → Notice
  | mk n _ => n

def children : Failure → List Failure
  | mk _ cs => cs

def message (f : Failure) : String := f.notice.message

/-- A failure from its parts and the failures below it. -/
def make (p : Notice.Parts) (children : List Failure) : Except Fault Failure := do
  return mk (← (← p.notice).refresh children.length) children

mutual

/-- Puts segments in front of the trail of a failure and of all below it. -/
def under (outer : Trail) : Failure → Except Fault Failure
  | mk n children => do
    let n ← (n.under outer).refresh children.length
    return mk n (← underAll outer children)

def underAll (outer : Trail) : List Failure → Except Fault (List Failure)
  | [] => .ok []
  | f :: rest => do
    let first ← under outer f
    return first :: (← underAll outer rest)

end

/-- Puts segments in front, if there are any. -/
def inside (outer : Trail) (f : Failure) : Except Fault Failure :=
  if outer.isEmpty then .ok f else f.under outer

/-- Records the segment as the key of the failure, unless it has one, and puts it in front of its
trail. The null segment changes nothing. -/
def located (segment : Value) (f : Failure) : Except Fault Failure :=
  match segment with
  | .null => .ok f
  | _ => (mk (f.notice.withKey segment) f.children).under [segment]

/-- Adds a failure below, located at a segment. -/
def addChild (parent child : Failure) (segment : Value) : Except Fault Failure := do
  let child ← child.located segment
  let children := parent.children ++ [child]
  return mk (← parent.notice.refresh children.length) children

mutual

/-- The failures that have none below them, from left to right. -/
def leaves : Failure → List Failure
  | mk n [] => [mk n []]
  | mk _ (c :: cs) => leaves c ++ leavesOf cs

def leavesOf : List Failure → List Failure
  | [] => []
  | f :: rest => leaves f ++ leavesOf rest

end

end Failure

/-- How a failure is shown: its message, its trail if it has one, and the number of its parts. -/
def Failure.shown (f : Failure) : Except Fault String := do
  let trail ← f.notice.trail.text
  let place := if f.notice.trail.isEmpty then "" else " at " ++ Text.quoted trail
  return "ValidationError(" ++ Text.quoted f.message ++ place ++ ", children=" ++
    toString f.children.length ++ ")"

/-- A failure as plain data: texts, the key and the comparison, and the parts. -/
inductive Report where
  | mk (message : String) (trail : String) (key comparison : Value) (got expected : Option Value.Formatted)
    (children : List Report)

/-- The report of a notice with the given parts. -/
def Notice.report (n : Notice) (children : List Report) : Except Fault Report := do
  let trail ← n.trail.text
  let got ← (n.get? "got").mapM Value.formatted
  let expected ← (n.get? "expected").mapM Value.formatted
  return .mk n.message trail n.key n.comparison got expected children

mutual

/-- The report of a failure. -/
def Failure.report : Failure → Except Fault Report
  | .mk n children => do n.report (← Failure.reports children)

def Failure.reports : List Failure → Except Fault (List Report)
  | [] => .ok []
  | f :: rest => do
    let first ← f.report
    return first :: (← Failure.reports rest)

end

end Attest
