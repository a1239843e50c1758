import Attest.Building
import Attest.Document.Meaning

/-!
# Settings

The defaults for building records: the completion mode, the messages for records and lists, and the
level of the log. Settings are read from named values, which are checked and brought into one form:
a mode by its name in any case, messages that are not empty, a level by its name in capitals.
-/

namespace Attest

/-- The completion mode that a value is or names. -/
def Mode.parse (v : Value) : Except Raised Mode :=
  let refuse : Except Raised Mode :=
    match v.shown with
    | .error e => .error (.fault e)
    | .ok shown => .error (Raised.schema ("Invalid completion mode: " ++ shown)
        [("mode", v), ("allowed", .list (Mode.values.map fun m => .text m.name))])
  match v with
  | .mode m => .ok m
  | .text s =>
    match Mode.ofName? (Text.upper (Text.trim s)) with
    | some m => .ok m
    | none => refuse
  | _ => refuse

/-- The defaults. Each message is a text, or a mode, whose name then is the text. -/
structure Settings where
  defaultMode : Mode
  message : Value
  arrayMessage : Value
  logLevel : Option String

namespace Settings

def default : Settings :=
  ⟨.strict, .text "Validation failed", .text "Array elements failed validation", none⟩

/-- The names of the settings, in order. -/
def names : List String := ["default_mode", "message", "array_message", "log_level"]

/-- The names of the levels, and the numbers they stand for. -/
def levels : List (String × Nat) :=
  [("CRITICAL", 50), ("FATAL", 50), ("ERROR", 40), ("WARN", 30), ("WARNING", 30), ("INFO", 20),
   ("DEBUG", 10), ("NOTSET", 0)]

/-- A message: a text that is not empty. -/
def checkMessage (name : String) (v : Value) : Except Raised Value :=
  let refuse := Raised.schema ("Setting '" ++ name ++ "' must be a non-empty string") [(name, v)]
  match v.asText? with
  | some s => if s.isEmpty then .error refuse else .ok v
  | none => .error refuse

/-- A level: nothing, or the name of one. -/
def checkLevel (v : Value) : Except Raised (Option String) :=
  match v with
  | .null => .ok none
  | _ =>
    match v.plain with
    | .error e => .error (.fault e)
    | .ok text =>
      let level := Text.upper text
      if (levels.lookup level).isSome then .ok (some level)
      else .error (Raised.schema ("Invalid log level: " ++ text) [("log_level", v)])

/-- The value of a setting: the one that is given, or the default. -/
def given (values : List (Value × Value)) (name : String) (default : Value) : Value :=
  (Value.lookup (.text name) values).getD default

/-- Settings from named values of which each is the name of a setting. -/
def check (values : List (Value × Value)) : Except Raised Settings := do
  let d := Settings.default
  let mode ← Mode.parse (given values "default_mode" (.mode d.defaultMode))
  let message ← checkMessage "message" (given values "message" d.message)
  let arrayMessage ←
    checkMessage "array_message" (given values "array_message" d.arrayMessage)
  let logLevel ← checkLevel (given values "log_level" .null)
  return ⟨mode, message, arrayMessage, logLevel⟩

/-- Whether a key is the name of a setting. -/
def isName (key : Value) : Bool :=
  match key.asText? with
  | some s => names.contains s
  | none => false

/-- Settings from arguments; a name that is none is not accepted. -/
def ofArguments (values : List (Value × Value)) : Except Raised Settings :=
  match values.find? fun (key, _) => !isName key with
  | some (key, _) =>
    .error (.fault (.badCall ("unexpected argument" ++
      ((key.asText?.map fun s => " '" ++ s ++ "'").getD ""))))
  | none => check values

/-- Settings from a map; a key that is no name is passed over with a warning. -/
def ofMap (values : List (Value × Value)) : Build Settings := do
  for (key, _) in values do
    if !isName key then
      Build.log .warning ("Ignoring unknown guard setting: " ++ (← Build.plain key))
  Build.ofExcept (check (values.filter fun (key, _) => isName key))

/-- Settings from the text of a document, whose path is given for messages. A document that says
nothing leaves the defaults. -/
def ofDocument (path text : String) : Build Settings := do
  let v ← Build.ofFault (Document.read text)
  match v.entries? with
  | some entries =>
    Build.log .debug ("Loaded guard settings from " ++ path)
    ofMap entries
  | none =>
    if v.isTruthy then
      Build.schemaError ("Guard settings file must contain a mapping: " ++ path)
        [("path", .text path), ("type", .text v.typeName)]
    else
      Build.log .debug ("Loaded guard settings from " ++ path)
      ofMap []

/-- The environment variable of a setting. -/
def variableName (name : String) : String := "DATAKNOBS_GUARD_" ++ Text.upper name

/-- Settings from environment variables; all others are passed over. -/
def ofEnvironment (environment : List (Value × Value)) : Except Raised Settings :=
  check (names.filterMap fun name =>
    (Value.lookup (.text (variableName name)) environment).map fun v => (.text name, v))

/-- The settings as named values. -/
def toMap (s : Settings) : List (Value × Value) :=
  [(.text "default_mode", .text s.defaultMode.name), (.text "message", s.message),
   (.text "array_message", s.arrayMessage),
   (.text "log_level", match s.logLevel with | some level => .text level | none => .null)]

/-- Whether settings say the same. -/
def agrees (s t : Settings) : Bool :=
  s.defaultMode == t.defaultMode && s.message.same t.message && s.arrayMessage.same t.arrayMessage &&
    s.logLevel == t.logLevel

/-- The settings with some values replaced; null values replace nothing. -/
def withOverrides (s : Settings) (overrides : List (Value × Value)) : Except Raised Settings := do
  Build.requireNames overrides
  let given := overrides.filter fun (_, v) => match v with | .null => false | _ => true
  match given.find? fun (key, _) => !isName key with
  | some _ => ofArguments given
  | none => check (given.foldl (fun values (key, v) => Value.insert key v values) s.toMap)

/-- The number of the level that the settings ask for. -/
def levelNumber? (s : Settings) : Option Nat := s.logLevel.bind fun level => levels.lookup level

/-- The level of the log once the settings are applied to it. -/
def appliedLevel (s : Settings) (current : Nat) : Nat := s.levelNumber?.getD current

end Settings

end Attest
