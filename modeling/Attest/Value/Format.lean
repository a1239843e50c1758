import Attest.Text.Template
import Attest.Value.Compact
import Attest.Value.Part

/-!
# Values in messages

How messages show a value: sequences in parentheses, dates in ISO form, a pattern by its source, a
map as a compact record or else explicitly, and a sequence inside itself as an ellipsis.

* `render`: a template filled with the formatted values of its variables.
-/

namespace Attest.Value

/-- What becomes of a value in a message: a text, or, of a pattern that is written in bytes,
these. -/
inductive Formatted where
  | text (s : String)
  | bytes (bs : List UInt8)
  deriving DecidableEq, Repr

/-- What a message shows of it. -/
def Formatted.shown : Formatted → String
  | .text s => s
  | .bytes bs => Text.quotedBytes bs

/-- What becomes of the source of a pattern. -/
def Formatted.ofSource : Pattern.Source → Formatted
  | .text s => .text s
  | .bytes bs => .bytes bs

/-- The texts from the `i`-th on, which are to be joined; bytes are no text. -/
def Formatted.texts (i : Nat) : List Formatted → Except Fault (List String)
  | [] => .ok []
  | .bytes _ :: _ => .error (.notTextItem i)
  | .text s :: rest => do return s :: (← texts (i + 1) rest)

/-- What becomes of a value that is no sequence and no map. -/
def formatAtom : Value → Except Fault Formatted
  | .moment m => .ok (.text m.text)
  | .date d => .ok (.text d.text)
  | .time t => .ok (.text t.text)
  | .pattern p => .ok (.ofSource p.source)
  | .null => .ok (.text "null")
  | .missing => .ok (.text "undefined")
  | .bool b => .ok (.text (if b then "TRUE" else "FALSE"))
  | v => do return .text (← v.plain)

/-- The text of a map. -/
def formatMap (v : Value) : Except Fault String :=
  match v.compact? with
  | some s => .ok s
  | none => v.shown

mutual

/-- What becomes of what stands at a place in a value. A reference is to a sequence around it; a map
is shown as a value of its own. The items of a sequence are joined once there is something of
all. -/
def formatAt (whole : Value) (place : Place) : Value → Except Fault Formatted
  | .list items | .tuple items | .set items => do
    let parts ← formatAll whole place 0 items
    return .text ("(" ++ commaJoined (← Formatted.texts 0 parts) ++ ")")
  | .map entries => do return .text (← formatMap (whole.takenOut place (.map entries)))
  | .up _ => .ok (.text "(...)")
  | v => formatAtom v

/-- What becomes of the items from the `i`-th on. -/
def formatAll (whole : Value) (place : Place) (i : Nat) : List Value → Except Fault (List Formatted)
  | [] => .ok []
  | v :: rest => do
    let first ← formatAt whole (place ++ [i]) v
    return first :: (← formatAll whole place (i + 1) rest)

end

/-- What becomes of a value in messages. -/
def formatted (v : Value) : Except Fault Formatted := formatAt v [] v

/-- The text of a value in messages. -/
def format (v : Value) : Except Fault String := do return (← v.formatted).shown

/-- The text of a template, which must be one. -/
def templateText (template : Value) : Except Fault String :=
  match template.asText?, template with
  | some s, _ => .ok s
  | none, .bytes _ => .error .patternOnBytes
  | none, _ => .error (.notSearchable template.qualifiedTypeName)

/-- Fills a template. Every variable is formatted, whether the template names it or not. -/
def render (template : Value) (bindings : List (String × Value)) : Except Fault String := do
  let texts ← bindings.mapM fun (name, v) => do return (name, ← v.format)
  return Text.fillTemplate (← template.templateText) fun name => texts.lookup name

end Attest.Value
