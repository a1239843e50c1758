import Attest.Schema

/-!
# Methods

The methods of validators by name, as specifications and blueprints write them: which class has
which method, how arguments are bound to its parameters, and what it adds to a validator.

* `Validator.extend`: a validator with one more link in its chain.
-/

namespace Attest

inductive Method where
  | transform | test | equals | notEquals | isIn | oneOf | notIn | optional
  | trim | lower | upper | minLength | maxLength | length | pattern | email | url | uuid | ipv4
  | notEmpty | startsWith | endsWith | contains
  | min | max | range | gt | lt | integer | positive | negative | finite | multipleOf | pow
  | true | false | before | after | past | future
  | of | unique | schema | keys
  deriving DecidableEq, Repr

namespace Method

/-- The methods and their names. -/
def table : List (String × Method) :=
  [("transform", transform), ("test", test), ("equals", equals), ("not_equals", notEquals),
   ("is_in", isIn), ("one_of", oneOf), ("not_in", notIn), ("optional", optional), ("trim", trim),
   ("lower", lower), ("upper", upper), ("min_length", minLength), ("max_length", maxLength),
   ("length", length), ("pattern", pattern), ("email", email), ("url", url), ("uuid", uuid),
   ("ipv4", ipv4), ("not_empty", notEmpty), ("starts_with", startsWith), ("ends_with", endsWith),
   ("contains", contains), ("min", min), ("max", max), ("range", range), ("gt", gt), ("lt", lt),
   ("integer", integer), ("positive", positive), ("negative", negative), ("finite", finite),
   ("multiple_of", multipleOf), ("pow", pow), ("true", true), ("false", false),
   ("before", before), ("after", after), ("past", past), ("future", future), ("of", of),
   ("unique", unique), ("schema", schema), ("keys", keys)]

def ofName? (name : String) : Option Method := table.lookup name

/-- The classes that have a method. -/
def kinds : Method → List Kind
  | transform | test | equals | notEquals | isIn | oneOf | notIn | optional =>
    [.any, .string, .number, .integer, .boolean, .date, .array, .object]
  | trim | lower | upper | length | pattern | email | url | uuid | ipv4 | startsWith | endsWith
  | contains => [.string]
  | minLength | maxLength | notEmpty => [.string, .array]
  | min | max => [.number, .integer, .date]
  | range | positive | negative => [.number, .integer]
  | gt | lt | integer | finite | multipleOf => [.number]
  | pow => [.integer]
  | true | false => [.boolean]
  | before | after | past | future => [.date]
  | of | unique => [.array]
  | schema | keys => [.object]

def isOf (m : Method) (kind : Kind) : Bool := m.kinds.contains kind

/-- The parameters of a method, and how many of them have to be given. -/
def parameters : Method → List String × Nat
  | transform => (["fn", "cls"], 1)
  | test => (["predicate", "message", "expected"], 1)
  | optional => (["default"], 0)
  | trim | lower | upper => ([], 0)
  | pow => (["exponent"], 1)
  | range => (["minimum", "maximum", "message"], 2)
  | of => (["schema", "message", "mode"], 1)
  | schema => (["schema", "mode", "message"], 1)
  | email | url | uuid | ipv4 | notEmpty | integer | positive | negative | finite | true | false
  | past | future | unique => (["message"], 0)
  | equals | notEquals | isIn | oneOf | notIn | minLength | maxLength | length | pattern
  | startsWith | endsWith | contains | min | max | gt | lt | multipleOf | before | after | keys =>
    (["value", "message"], 1)

/-- Binds arguments in order, and a message by name, to parameters; what was not given is `none`. -/
def bind (parameters : List String) (needed : Nat) (args : List Value) (message : Option Value) :
    Except Raised (List (Option Value)) :=
  let refuse (text : String) : Except Raised (List (Option Value)) := .error (.fault (.badCall text))
  if args.length > parameters.length then refuse "too many arguments"
  else
    let bound := parameters.zipIdx.map fun (_, i) => args[i]?
    let bound : Except Raised (List (Option Value)) :=
      match message with
      | none => .ok bound
      | some m =>
        match parameters.findIdx? (· == "message") with
        | none => refuse "unexpected argument 'message'"
        | some i =>
          if i < args.length then refuse "several values for 'message'"
          else .ok (bound.set i (some m))
    match bound with
    | .error r => .error r
    | .ok bound =>
      if (bound.take needed).all Option.isSome then .ok bound else refuse "too few arguments"

end Method

namespace Validator

/-- The class that a second argument of `transform` asks for: one that counts as false asks for
none. -/
def targetKind (v : Validator) (cls : Value) : Except Raised Kind :=
  match cls with
  | .type (.validator kind) => .ok kind
  | _ =>
    if cls.isTruthy then .error (.fault (.notCallable cls.qualifiedTypeName)) else .ok v.kind

/-- A bound on a number or a date, in the words of its class. -/
def bound (v : Validator) (r : Relation) (bound message : Value)
    (number date : String) : Validator :=
  v.test (.compares r bound) message
    (if v.kind == .date then "Expected date ($\x7bgot\x7d) to be " ++ date ++ " $\x7bexpected\x7d"
     else "Expected value ($\x7bgot\x7d) to be " ++ number ++ " $\x7bexpected\x7d")
    bound

/-- A sign, in the words of the class. -/
def sign (v : Validator) (c : Check) (message : Value) (word : String) : Validator :=
  v.test c message
    ("Expected " ++ word ++ (if v.kind == .integer then " integer" else " number") ++
      ", got $\x7bgot\x7d")
    .missing

/-- One of the known forms of texts. -/
def form (v : Validator) (p : Pattern) (message : Value) (name : String) : Validator :=
  v.hasPattern p message ("Expected a valid " ++ name ++ ", got $\x7bgot\x7d")

/-- The length of a text or a list, by class. -/
def atLeastLong (v : Validator) (length message : Value) : Build Validator :=
  if v.kind == .array then v.listMinLength length message else v.textMinLength length message

def atMostLong (v : Validator) (length message : Value) : Build Validator :=
  if v.kind == .array then v.listMaxLength length message else v.textMaxLength length message

/-- What a method without a first argument adds. -/
def extendPlain (v : Validator) (m : Method) (message : Value) : Validator :=
  match m with
  | .email => v.form emailPattern message "email address"
  | .url => v.form urlPattern message "URL"
  | .uuid => v.form uuidPattern message "UUID"
  | .ipv4 => v.form ipv4Pattern message "IPv4 address"
  | .notEmpty =>
    v.test .notEmpty message
      (if v.kind == .array then "Expected non-empty array" else "Expected non-empty string") .missing
  | .integer => v.test .integral message "Expected integer, got $\x7bgot\x7d" .missing
  | .finite => v.test .finite message "Expected finite number, got $\x7bgot\x7d" .missing
  | .positive => v.sign .positive message "positive"
  | .negative => v.sign .negative message "negative"
  | .true => v.check (.equals (.bool true)) message (.bool true) "equals"
  | .false => v.check (.equals (.bool false)) message (.bool false) "equals"
  | .past => v.test .past message "Expected a date in the past, got $\x7bgot\x7d" .missing
  | .future => v.test .future message "Expected a date in the future, got $\x7bgot\x7d" .missing
  | .unique => v.test .distinct message "Expected array with unique elements" .missing
  | _ => v

/-- What a method with one argument adds. -/
def extendWith (v : Validator) (m : Method) (x message : Value) :
    Build Validator :=
  match m with
  | .equals => return v.check (.equals x) message x "equals"
  | .notEquals => return v.check (.differs x) message x "notEquals"
  | .isIn | .oneOf => Build.ofExcept (v.isIn x message)
  | .notIn => Build.ofExcept (v.notIn x message)
  | .minLength => v.atLeastLong x message
  | .maxLength => v.atMostLong x message
  | .length => v.textLength x message
  | .pattern => v.pattern x message
  | .startsWith =>
    return v.test (.startsWith x) message
      "Expected string to start with $\x7bexpected\x7d, got $\x7bgot\x7d" x
  | .endsWith =>
    return v.test (.endsWith x) message
      "Expected string to end with $\x7bexpected\x7d, got $\x7bgot\x7d" x
  | .contains =>
    return v.test (.contains x) message
      "Expected string to contain $\x7bexpected\x7d, got $\x7bgot\x7d" x
  | .min => return v.bound .atLeast x message "greater than or equal to" "on or after"
  | .max => return v.bound .atMost x message "less than or equal to" "on or before"
  | .gt => return v.bound .greater x message "greater than" "after"
  | .lt => return v.bound .less x message "less than" "before"
  | .after => return v.bound .greater x message "greater than" "after"
  | .before => return v.bound .less x message "less than" "before"
  | .multipleOf => v.multipleOf x message
  | .pow => v.power x
  | .keys => v.hasKeys x message
  | _ => return v

/-- The validator with one more link in its chain. -/
def extend (v : Validator) (m : Method) (args : List Value) (message : Option Value) :
    Build Validator := do
  if !m.isOf v.kind then
    let name := ((Method.table.find? (·.2 == m)).map (·.1)).getD ""
    throw (.fault (.noAttribute ("'" ++ v.kind.className ++ "' object") name))
  let (parameters, needed) := m.parameters
  let bound ← Build.ofExcept (Method.bind parameters needed args message)
  let orNull (x : Option Value) : Value := x.getD .null
  match m, bound with
  | .trim, _ => return v.andThen (.change .trim)
  | .lower, _ => return v.andThen (.change .lower)
  | .upper, _ => return v.andThen (.change .upper)
  | .transform, some f :: cls =>
    let kind ← Build.ofExcept (v.targetKind (orNull (cls.headD none)))
    return ⟨kind, .andThen v.step (.change (.apply f.toCallable))⟩
  | .test, [some f, message, expected] =>
    return v.check (.satisfies f.toCallable) (orNull message) (expected.getD .missing) "test"
  | .optional, [default] => return v.optional (default.getD .missing)
  | .range, [some low, some high, message] => v.range low high (orNull message)
  | .of, [some schema, message, mode] => v.elementsOf schema (orNull message) (orNull mode)
  | .schema, [some schema, mode, message] => v.schema schema (orNull mode) (orNull message)
  | m, [some x, message] => v.extendWith m x (orNull message)
  | .pow, [some x] => v.extendWith .pow x .null
  | m, [message] => return v.extendPlain m (orNull message)
  | _, _ => return v

end Validator

end Attest
