import Attest.Settings

/-!
# Schemas

A schema is a value that looks like the values it describes. A validator in it stands for itself, a
data type or a sample for the validator of its kind, a pattern for texts that match it, a list of
one schema for lists, a map for records, and anything that can be called for itself.
`Schema.compile` walks it once, in depth, and raises at once what it cannot make sense of.
-/

namespace Attest

/-- The kind of values that a data type stands for; `none` for a type that is only called. -/
def DataType.sampleKind? : DataType → Option Kind
  | .text => some .string
  | .boolean => some .boolean
  | .integer => some .integer
  | .float => some .number
  | .moment | .date => some .date
  | .list => some .array
  | .map => some .object
  | .tuple | .validator _ => none

/-- The kind of values that a sample is one of. -/
def Value.sampleKind? : Value → Option Kind
  | .bool _ => some .boolean
  | .int _ | .float _ | .nan _ => some .number
  | .text _ | .mode _ => some .string
  | .moment _ | .date _ => some .date
  | _ => none

namespace Schema

/-- The message for the record or list under a key. -/
def memberMessage (key : String) : String := key ++ " contains elements which are not valid"

/-- The mistake of a value that is no schema. -/
def unsupported (v : Value) : Raised :=
  Raised.schema ("Unsupported schema type: " ++ v.typeName) [("type", .text v.typeName)]

/-- The mistake of a list with several schemas. -/
def severalElements (count : Nat) : Raised :=
  Raised.schema "Array schema must declare exactly one element schema" [("length", .int count)]

/-- The validator of a schema that has no parts. -/
def compileLeaf (v : Value) : Except Raised Validator :=
  match v with
  | .validator kind step _ => .ok ⟨kind, step⟩
  | .pattern p =>
    .ok ((Validator.create .string .null).hasPattern p .null
      "Expected value to match pattern $\x7bexpected\x7d, got $\x7bgot\x7d")
  | .type t =>
    match t.sampleKind? with
    | some kind => .ok (Validator.create kind .null)
    | none => .ok (Validator.ofValue v)
  | .function _ => .ok (Validator.ofValue v)
  | .up _ => .error (.fault .endless)
  | _ =>
    match v.sampleKind? with
    | some kind => .ok (Validator.create kind .null)
    | none => .error (unsupported v)

mutual

/-- The validator of one node. The message is for a record or a list. -/
def compileNode (mode : Mode) (settings : Settings) (message : Value) :
    Value → Build Validator
  | .list items | .tuple items => compileElement mode settings message items
  | .map entries => do
    let fields ← compileFields mode settings entries
    Build.log .debug ("Compiled object node with " ++ toString fields.length ++ " keys in " ++
      mode.name ++ " mode")
    return ⟨.object, .fields mode (message.orElse settings.message) fields⟩
  | v => Build.ofExcept (compileLeaf v)

/-- The validator of a list of schemas, of which there may be one at most. -/
def compileElement (mode : Mode) (settings : Settings) (message : Value) :
    List Value → Build Validator
  | [] => return Validator.create .array .null
  | [node] => do
    let element ← compileNode mode settings .null node
    return (Validator.create .array .null).andThen
      (.elements (message.orElse settings.arrayMessage) element.step)
  | items => throw (severalElements items.length)

/-- The fields of a record, in order. -/
def compileFields (mode : Mode) (settings : Settings) :
    List (Value × Value) → Build (List (Value × Step))
  | [] => return []
  | (key, node) :: rest => do
    let name ← Build.plain key
    let member ← compileNode mode settings (.text (memberMessage name)) node
    return (key, member.step) :: (← compileFields mode settings rest)

end

/-- The validator with a path in front of all its failures. -/
def under (path : List Value) (v : Validator) : Validator :=
  if path.isEmpty then v else ⟨v.kind, .inside path v.step⟩

/-- Compiles a schema. A mode that is null is the one of the settings. -/
def compile (schema mode path message : Value) (settings : Settings) : Build Validator := do
  let mode ← match mode with
    | .null => pure settings.defaultMode
    | _ => Build.ofExcept (Mode.parse mode)
  let path ← Build.ofFault path.iterate
  return under path (← compileNode mode settings message schema)

end Schema

namespace Validator

/-- Judges every item of a list by a schema. -/
def elementsOf (v : Validator) (schema message mode : Value) : Build Validator := do
  let element ← Schema.compile schema mode (.list []) .null Settings.default
  return v.andThen (.elements (message.orElse Settings.default.arrayMessage) element.step)

/-- Judges a record by a schema, which must be a map. -/
def schema (v : Validator) (schema mode message : Value) : Build Validator := do
  match schema with
  | .map _ =>
    let record ← Schema.compile schema mode (.list []) message Settings.default
    return v.andThen record.step
  | _ => Build.schemaError "Object schema must be a mapping" [("type", .text schema.typeName)]

end Validator

end Attest
