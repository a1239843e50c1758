import Attest.Calendar.Moment
import Attest.Fault
import Attest.Mode
import Attest.Number.Binary
import Attest.Pattern.Syntax

/-!
# Values and steps

The untyped values that are judged, and the steps that judge them. The two are defined together: a
step holds the values it compares with, and a validator may itself be a value, for instance as a
default or inside a schema.

A cyclic value is a finite term: `up n` stands for the `n`-th enclosing list, tuple, set or map,
counted from the inside.
-/

namespace Attest

/-- The class of a validator, which decides what may be chained to it. -/
inductive Kind where
  | any
  | string
  | number
  | integer
  | boolean
  | date
  | array
  | object
  deriving DecidableEq, Repr

/-- The types that are values themselves: data types, and the classes of validators. -/
inductive DataType where
  | text
  | boolean
  | integer
  | float
  | moment
  | date
  | list
  | map
  | tuple
  | validator (kind : Kind)
  deriving DecidableEq, Repr

/-- A user function, known by its number in the world. -/
structure FunctionId where
  index : Nat
  deriving DecidableEq, Repr

/-- Tells apart things that are equal to nothing but themselves. -/
structure ObjectId where
  index : Nat
  deriving DecidableEq, Repr

/-- The name of a type that is neither the one of the truth values nor one of the numbers. -/
structure ForeignType where
  name : String
  isForeign : name ∉ ["bool", "int", "float"]
  deriving DecidableEq, Repr

/-- What is known of an object. -/
inductive Nature where
  /-- No features at all. -/
  | bare
  /-- A number of a type of its own, by its type, its explicit text and its text. -/
  | real (type : ForeignType) (explicit text : String)
  /-- The object of an exception, by its class and by the text that it was made with, if any. -/
  | trouble (type : ForeignType) (text : Option String)
  deriving DecidableEq, Repr

/-- An object that is equal to nothing but itself, with what is known of it. -/
structure Individual where
  id : ObjectId
  nature : Nature
  deriving DecidableEq, Repr

mutual

inductive Value where
  /-- Not provided at all. -/
  | missing
  | null
  | bool (b : Bool)
  | int (n : Int)
  | float (x : Float)
  /-- A float that is no number and that is known to be met more than once. -/
  | nan (id : ObjectId)
  | text (s : String)
  | bytes (bs : List UInt8)
  | list (items : List Value)
  | tuple (items : List Value)
  | set (items : List Value)
  /-- Entries in insertion order; no two keys are the same. -/
  | map (entries : List (Value × Value))
  | moment (m : Calendar.Moment)
  | date (d : Calendar.Date)
  | time (t : Calendar.Time)
  | pattern (p : Pattern)
  | mode (m : Mode)
  | type (t : DataType)
  | object (o : Individual)
  | function (f : FunctionId)
  /-- A validator; one that was made on the way has no number, and is met only once. -/
  | validator (kind : Kind) (step : Step) (id : Option ObjectId)
  /-- The `n`-th enclosing container. -/
  | up (n : Nat)

/-- What may be called. -/
inductive Callable where
  | function (f : FunctionId)
  | type (t : DataType)
  | step (s : Step)
  /-- Something that cannot be called, by the name of its type. -/
  | nothing (type : String)

/-- What an optional step does about missing input. -/
inductive Default where
  | none
  | value (v : Value)
  | produced (f : Callable)

/-- A question about a value. -/
inductive Check where
  | equals (v : Value)
  | differs (v : Value)
  | among (candidates : List Value)
  | notAmong (candidates : List Value)
  | compares (relation : Relation) (bound : Value)
  | between (low high : Value)
  | lengthIs (n : Value)
  | lengthCompares (relation : Relation) (bound : Value)
  | notEmpty
  | hasMatch (p : Pattern)
  | startsWith (s : Value)
  | endsWith (s : Value)
  | contains (part : Value)
  | integral
  | finite
  | multipleOf (base : Value)
  | positive
  | negative
  | past
  | future
  | distinct
  | hasKeys (keys : List Value)
  /-- A question that cannot be asked; every call notices that. -/
  | impossible (f : Fault)
  | satisfies (f : Callable)

/-- A function of one value. -/
inductive Change where
  | trim
  | lower
  | upper
  | power (exponent : Value)
  | apply (f : Callable)

/-- What a validator does with its arguments. A message is null where there is none; it should be a
text, and one that is not is trouble only when it is to be shown. -/
inductive Step where
  /-- Answers its first argument. -/
  | accept
  /-- Answers a value of the kind, converted if need be. -/
  | coerce (kind : Kind) (message : Value)
  | call (f : Callable)
  /-- Turns every other trouble of the step into a failure. -/
  | guarded (step : Step) (comparison : Value)
  | change (c : Change)
  /-- Answers its argument if the check holds. `expected` is shown in messages unless missing. -/
  | check (c : Check) (message : Value) (expected : Value) (comparison : String)
  /-- The second step on the answer of the first. -/
  | andThen (first second : Step)
  | optional (step : Step) (default : Default)
  /-- The answer of the first alternative that accepts. -/
  | union (alternatives : List Step) (message : Value)
  | fields (mode : Mode) (message : Value) (entries : List (Value × Step))
  | elements (message : Value) (element : Step)
  /-- Puts a path in front of every failure's own. -/
  | inside (path : List Value) (step : Step)

end

instance : Inhabited Value := ⟨.missing⟩

/-- A validator: a step under a class. -/
structure Validator where
  kind : Kind
  step : Step

namespace Value

/-- A validator as a value. -/
def ofValidator (v : Validator) : Value := .validator v.kind v.step none

/-- Nothing was given: null or missing. -/
def isNullish : Value → Bool
  | .missing | .null => true
  | _ => false

def isMissing : Value → Bool
  | .missing => true
  | _ => false

/-- The text of a text; the name of a mode counts as one. -/
def asText? : Value → Option String
  | .text s => some s
  | .mode m => some m.name
  | _ => none

/-- What can be called, and how. -/
def asCallable? : Value → Option Callable
  | .function f => some (.function f)
  | .type t => some (.type t)
  | .validator _ step _ => some (.step step)
  | _ => none

/-- The float of a float. -/
def asFloat? : Value → Option Float
  | .float x => some x
  | .nan _ => some Number.nan
  | _ => none

end Value

end Attest
