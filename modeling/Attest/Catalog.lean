import Attest.Building

/-!
# Catalogs

Validators by name, in the order in which the names were entered. Replacing a validator keeps its
place; a name that was removed and comes back goes to the end. An operation that raises leaves the
catalog as it was, with one exception: a validator stays entered if only the line about it in the
log cannot be written, since its key is a number too long for a text.
-/

namespace Attest

structure Catalog where
  name : String
  entries : List (Value × Validator)

namespace Catalog

def empty (name : String) : Catalog := ⟨name, []⟩

def find? (c : Catalog) (key : Value) : Option Validator :=
  (c.entries.find? fun (k, _) => k.same key).map (·.2)

def has (c : Catalog) (key : Value) : Bool := (c.find? key).isSome

/-- The names in order. -/
def keys (c : Catalog) : List Value := c.entries.map (·.1)

def count (c : Catalog) : Nat := c.entries.length

/-- How a catalog is shown. -/
def shown (c : Catalog) : String :=
  "ValidatorRegistry(name=" ++ Text.quoted c.name ++ ", count=" ++ toString c.count ++ ")"

/-- Where an error happened: the key and the catalog. -/
def context (c : Catalog) (key : Value) : List (Value × Value) :=
  [(.text "key", key), (.text "registry", .text c.name)]

/-- Sets the validator under a key: in its place if the key is there, else at the end. -/
def put (key : Value) (v : Validator) : List (Value × Validator) → List (Value × Validator)
  | [] => [(key, v)]
  | (k, w) :: rest => if k.same key then (k, v) :: rest else (k, w) :: put key v rest

/-- A key must be one that can be looked up. -/
def checkKey (key : Value) : Build Unit :=
  match key.unhashable? with
  | some culprit => throw (.fault (.unhashable culprit))
  | none => return ()

/-- The catalog with a validator under a key that is free, or under any if it may be replaced. -/
def entered (c : Catalog) (key value : Value) (replace : Bool) : Build Catalog := do
  match value with
  | .validator kind step _ =>
    checkKey key
    if !replace && c.has key then
      let text ← Build.plain key
      throw (.setup ⟨.operation, "Validator '" ++ text ++ "' already registered in " ++ c.name,
        c.context key⟩)
    return { c with entries := put key ⟨kind, step⟩ c.entries }
  | _ =>
    throw (.setup ⟨.schema, "Only validators can be registered, got " ++ value.typeName,
      c.context key⟩)

/-- Writes to the log that a key was entered. -/
def announce (c : Catalog) (key : Value) : Build Unit := do
  Build.log .debug ("Registered validator '" ++ (← Build.plain key) ++ "' in " ++ c.name)

/-- Enters a validator and says so in the log. The catalog that is left comes with the outcome. -/
def register (c : Catalog) (key value : Value) (replace : Bool) :
    StateM (List LogLine) (Except Raised Unit × Catalog) := do
  match ← (c.entered key value replace).run with
  | .error r => return (.error r, c)
  | .ok c => return (← (c.announce key).run, c)

/-- The error of a key that is not there. -/
def notFound (c : Catalog) (key : Value) (more : List (Value × Value)) : Build Raised := do
  return .setup ⟨.notFound, "Validator not found: " ++ (← Build.plain key), c.context key ++ more⟩

/-- The validator under a key. -/
def get (c : Catalog) (key : Value) : Build Validator := do
  checkKey key
  match c.find? key with
  | some v => return v
  | none => throw (← c.notFound key [(.text "available_keys", .list c.keys)])

/-- Removes a key; answers its validator and what is left. -/
def unregister (c : Catalog) (key : Value) : Build (Validator × Catalog) := do
  checkKey key
  match c.find? key with
  | some v => return (v, { c with entries := c.entries.filter fun (k, _) => !k.same key })
  | none => throw (← c.notFound key [])

def clear (c : Catalog) : Catalog := { c with entries := [] }

end Catalog

end Attest
