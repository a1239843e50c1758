import Attest.Catalog
import Attest.Method

/-!
# Blueprints

Records described by plain data: a map with a mode, a message, a path and a list of fields, each
with a name, a type or a reference into a catalog, and checks. A blueprint is built into the
validator that the schema it describes would compile to.
-/

namespace Attest.Blueprint

/-- The types of fields, by name. -/
def fieldTypes : List (String × Kind) :=
  [("string", .string), ("number", .number), ("integer", .integer), ("bigint", .integer),
   ("boolean", .boolean), ("date", .date), ("array", .array), ("object", .object), ("any", .any)]

/-- The checks of fields, by name: the method, and the keys of its arguments. -/
def checkTypes : List (String × Method × List String) :=
  [("min", .min, ["value"]), ("max", .max, ["value"]), ("range", .range, ["min", "max"]),
   ("length", .length, ["value"]), ("min_length", .minLength, ["value"]),
   ("max_length", .maxLength, ["value"]), ("pattern", .pattern, ["pattern"]),
   ("in", .isIn, ["values"]), ("not_in", .notIn, ["values"]), ("equals", .equals, ["value"]),
   ("not_equals", .notEquals, ["value"])]

/-- The names in a table, as a list value. -/
def namesOf {α : Type} (table : List (String × α)) : Value := .list (table.map fun (n, _) => .text n)

/-- The value under a key of a configuration, or another one. -/
def option (config : List (Value × Value)) (key : String) (default : Value) : Value :=
  (Value.lookup (.text key) config).getD default

/-- The entries of a configuration, which must be a map. -/
def configOf (v : Value) : Build (List (Value × Value)) :=
  match v.entries?, v with
  | some entries, _ => return entries
  | none, .type .map => throw (.fault (.badCall "a type of maps is no map"))
  | none, v => throw (.fault (.noAttribute v.owner "get"))

/-- A name in lower case, however it was written. -/
def lowerName (v : Value) : Build String := do return Text.lower (← Build.plain v)

/-- Adds one check to a validator. -/
def applyCheck (fieldName : Value) (v : Validator) (check : Value) : Build Validator := do
  let config ← configOf check
  let type ← lowerName (option config "type" (.text ""))
  match checkTypes.lookup type with
  | none =>
    Build.schemaError ("Unknown check type: " ++ type)
      [("field", fieldName), ("type", .text type), ("available", namesOf checkTypes)]
  | some (method, keys) =>
    if !method.isOf v.kind then
      Build.schemaError ("Check '" ++ type ++ "' is not supported by " ++ v.kind.className)
        [("field", fieldName), ("type", .text type)]
    let absent := keys.filter fun key => !Value.hasKey (.text key) config
    if !absent.isEmpty then
      let field ← Build.plain fieldName
      Build.schemaError ("Check '" ++ type ++ "' on field '" ++ field ++ "' is missing: " ++
          String.intercalate ", " absent)
        [("field", fieldName), ("type", .text type), ("missing", .list (absent.map .text))]
    let args := keys.map fun key => option config key .null
    v.extend method args (some (option config "message" .null))

/-- Adds the checks of a field, and the default if the field need not be there. -/
def finish (config : List (Value × Value)) (fieldName : Value) (v : Validator) : Build Validator := do
  let checks ← Build.ofFault (option config "checks" (.list [])).iterate
  let v ← checks.foldlM (applyCheck fieldName) v
  if (option config "required" (.bool true)).isTruthy then return v
  else return v.optional (option config "default" .missing)

/-- The validator that a reference names. -/
def resolve (catalog : Option Catalog) (fieldName ref : Value) : Build Validator := do
  match catalog with
  | none =>
    let field ← Build.plain fieldName
    let name ← Build.plain ref
    Build.schemaError
      ("Field '" ++ field ++ "' uses ref '" ++ name ++ "' but no registry is configured") []
  | some c => c.get ref

/-- The kind of a field's type. -/
def kindOf (config : List (Value × Value)) (fieldName : Value) : Build Kind := do
  let type ← lowerName (option config "type" (.text "string"))
  match fieldTypes.lookup type with
  | some kind => return kind
  | none =>
    Build.schemaError ("Unknown field type: " ++ type)
      [("field", fieldName), ("type", .text type), ("available", namesOf fieldTypes)]

/-- The name of a field, which must be new and not empty. -/
def nameOf (config : List (Value × Value)) (earlier : List (Value × Value)) : Build Value := do
  let name := option config "name" .null
  if !name.isTruthy then
    Build.schemaError "Field configuration missing 'name'" [("field", .map config)]
  match name.unhashable? with
  | some culprit => throw (.fault (.unhashable culprit))
  | none =>
    if Value.hasKey name earlier then
      Build.schemaError ("Duplicate field: " ++ (← Build.plain name)) [("field", name)]
    return name

/-- Everything a blueprint is built with. -/
structure Setting where
  catalog : Option Catalog
  settings : Settings
  mode : Mode

/-- How deep a walk through a configuration goes at most: three turns for a field, and one for the
end of its list. Only a cyclic configuration needs more. -/
def depthBound (config : List (Value × Value)) : Nat := 3 * (Value.map config).nodes + 1

mutual

/-- The fields of a record, as a schema of validators. -/
def buildFields (s : Setting) : (fuel : Nat) → (fields : List Value) → (built : List (Value × Value)) →
    Build (List (Value × Value))
  | 0, _, _ => throw (.fault .endless)
  | _ + 1, [], built => return built
  | fuel + 1, field :: rest, built => do
    let config ← configOf field
    let name ← nameOf config built
    let v ← buildField s fuel config name
    buildFields s fuel rest (built ++ [(name, .ofValidator v)])

/-- The validator of one field, or of the items of a list. -/
def buildField (s : Setting) : (fuel : Nat) → (config : List (Value × Value)) → (name : Value) →
    Build Validator
  | 0, _, _ => throw (.fault .endless)
  | fuel + 1, config, name => do
    let ref := option config "ref" .null
    let v ←
      if ref.isTruthy then resolve s.catalog name ref
      else
        let kind ← kindOf config name
        buildTyped s fuel config name kind
    finish config name v

/-- The validator of a type: a nested record, a list of a given kind of items, or the plain type. -/
def buildTyped (s : Setting) : (fuel : Nat) → (config : List (Value × Value)) → (name : Value) →
    (kind : Kind) → Build Validator
  | 0, _, _, _ => throw (.fault .endless)
  | fuel + 1, config, name, kind => do
    match kind, Value.lookup (.text "fields") config, Value.lookup (.text "items") config with
    | .object, some fields, _ =>
      let fields ← Build.ofFault fields.iterate
      let nested ← buildFields s fuel fields []
      let text ← Build.plain name
      let message := option config "message" (.text (Schema.memberMessage text))
      Schema.compile (.map nested) (.mode s.mode) (.list []) message s.settings
    | .array, _, some items =>
      let text ← Build.plain name
      let config' ← configOf items
      let element ← buildField s fuel config' (.text (text ++ "[]"))
      (Validator.create .array .null).elementsOf (.ofValidator element) (option config "message" .null)
        (.mode s.mode)
    | kind, _, _ => return Validator.create kind .null

end

/-- Builds the validator that a blueprint describes. -/
def build (catalog : Option Catalog) (settings : Settings) (config : List (Value × Value)) :
    Build Validator := do
  Build.ofExcept (Build.requireNames config)
  let modeOption := option config "mode" .null
  let mode ← if modeOption.isTruthy then Build.ofExcept (Mode.parse modeOption)
    else pure settings.defaultMode
  let name ← Build.plain (option config "name" (.text "unnamed_struct"))
  Build.log .info ("Creating struct validator: " ++ name)
  let fields ← Build.ofFault (option config "fields" (.list [])).iterate
  let schema ← buildFields ⟨catalog, settings, mode⟩ (depthBound config) fields []
  Schema.compile (.map schema) (.mode mode) (option config "path" (.list []))
    (option config "message" .null) settings

end Attest.Blueprint
