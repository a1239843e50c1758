import Attest.Number.Written
import Attest.Text.Quoted
import Attest.Value.Equality

/-!
# Values as text

Two texts of a value. `shown` is explicit: texts are quoted, containers show their parts, and a
reference to an enclosing container is an ellipsis in that container's brackets. `plain` is the same
but for texts, modes and dates, which read as people write them. An integer with too many digits has
neither.
-/

namespace Attest.Value

open Text (quoted quotedBytes)

/-- Texts joined by commas. -/
def commaJoined (parts : List String) : String := String.intercalate ", " parts

/-- A length of time as its days, seconds and microseconds, those that are zero left out. -/
def durationShown (micros : Int) : String :=
  let day := micros / Calendar.microsPerDay
  let rest := micros % Calendar.microsPerDay
  let parts := [("days", day), ("seconds", rest / 1000000), ("microseconds", rest % 1000000)]
  let shown := parts.filterMap fun (name, n) =>
    if n == 0 then none else some (name ++ "=" ++ toString n)
  "datetime.timedelta(" ++ (if shown.isEmpty then "0" else commaJoined shown) ++ ")"

/-- The last argument of a shown time: its offset, if it has one. -/
def offsetShown : Option Int → List String
  | none => []
  | some offset =>
    if offset == 0 then ["tzinfo=datetime.timezone.utc"]
    else ["tzinfo=datetime.timezone(" ++ durationShown offset ++ ")"]

/-- Hour and minute, then second and microsecond as far as there are any. -/
def clockShown (t : Calendar.Time) : List String :=
  [toString t.hour, toString t.minute] ++
    (if t.micro != 0 then [toString t.second, toString t.micro]
     else if t.second != 0 then [toString t.second] else [])

def dateArguments (d : Calendar.Date) : List String :=
  [toString d.year, toString d.month, toString d.day]

def dateShown (d : Calendar.Date) : String :=
  "datetime.date(" ++ commaJoined (dateArguments d) ++ ")"

def timeShown (t : Calendar.Time) : String :=
  "datetime.time(" ++ commaJoined (clockShown t ++ offsetShown t.offset) ++ ")"

def momentShown (m : Calendar.Moment) : String :=
  "datetime.datetime(" ++
    commaJoined (dateArguments m.date ++ clockShown m.time ++ offsetShown m.time.offset) ++ ")"

/-- The first characters of a text, at most two hundred. -/
def clipped (s : String) : String := String.ofList (s.toList.take 200)

/-- The source of a pattern, in quotes. -/
def sourceShown : Pattern.Source → String
  | .text s => quoted s
  | .bytes bs => quotedBytes bs

def patternShown (p : Pattern) : String :=
  let o := p.options
  let flags := [(o.template, "re.TEMPLATE"), (o.ignoreCase, "re.IGNORECASE"),
    (o.multiline, "re.MULTILINE"), (o.dotAll, "re.DOTALL"), (o.verbose, "re.VERBOSE"),
    (o.ascii, "re.ASCII")]
  let names := flags.filterMap fun (isSet, name) => if isSet then some name else none
  "re.compile(" ++ clipped (sourceShown p.source) ++
    (if names.isEmpty then "" else ", " ++ String.intercalate "|" names) ++ ")"

/-- An integer in decimal. -/
def intShown (n : Int) : Except Fault String :=
  match Number.intText? n with
  | some s => .ok s
  | none => .error .tooManyDigits

/-- The explicit text of an object: for that of an exception, how it is made. -/
def natureShown : Nature → String
  | .bare => "<object object>"
  | .real _ explicit _ => explicit
  | .trouble t said => t.name ++ "(" ++ (said.map quoted).getD "" ++ ")"

/-- What the object of an exception says. What was not found is said in quotes. -/
def troubleText (t : ForeignType) : Option String → String
  | none => ""
  | some s => if t.name == "KeyError" then quoted s else s

/-- The text of an object. -/
def naturePlain : Nature → String
  | .trouble t said => troubleText t said
  | .real _ _ plain => plain
  | n => natureShown n

/-- The text of a value that holds no other values. -/
def atomShown : Value → Except Fault String
  | .missing => .ok "MISSING"
  | .null => .ok "None"
  | .bool b => .ok (if b then "True" else "False")
  | .int n => intShown n
  | .float x => .ok (Number.floatText x)
  | .nan _ => .ok (Number.floatText Number.nan)
  | .text s => .ok (quoted s)
  | .bytes bs => .ok (quotedBytes bs)
  | .moment m => .ok (momentShown m)
  | .date d => .ok (dateShown d)
  | .time t => .ok (timeShown t)
  | .pattern p => .ok (patternShown p)
  | .mode m => .ok ("<CompletionMode." ++ m.name ++ ": " ++ quoted m.name ++ ">")
  | .type t => .ok t.shown
  | .object o => .ok (natureShown o.nature)
  | .function _ => .ok "<function>"
  | .validator kind _ _ => .ok kind.shown
  | .up _ | .list _ | .tuple _ | .set _ | .map _ => .ok "..."

mutual

/-- The explicit text of a value. `enclosing` holds the ellipsis of each enclosing container, from
the inside. -/
def shownIn (enclosing : List String) : Value → Except Fault String
  | .list items => do return "[" ++ commaJoined (← shownAll ("[...]" :: enclosing) items) ++ "]"
  | .tuple items => do
    match ← shownAll ("(...)" :: enclosing) items with
    | [one] => return "(" ++ one ++ ",)"
    | parts => return "(" ++ commaJoined parts ++ ")"
  | .set [] => .ok "set()"
  | .set items => do
    return "\x7b" ++ commaJoined (← shownAll ("set(...)" :: enclosing) items) ++ "\x7d"
  | .map entries => do
    return "\x7b" ++ commaJoined (← shownEntries ("\x7b...\x7d" :: enclosing) entries) ++ "\x7d"
  | .up n => .ok (enclosing.getD n "...")
  | v => atomShown v

def shownAll (enclosing : List String) : List Value → Except Fault (List String)
  | [] => .ok []
  | v :: rest => do
    let first ← shownIn enclosing v
    return first :: (← shownAll enclosing rest)

def shownEntries (enclosing : List String) : List (Value × Value) → Except Fault (List String)
  | [] => .ok []
  | (k, v) :: rest => do
    let key ← shownIn enclosing k
    let value ← shownIn enclosing v
    return (key ++ ": " ++ value) :: (← shownEntries enclosing rest)

end

/-- The explicit text of a value. -/
def shown (v : Value) : Except Fault String := shownIn [] v

/-- The text of a value as people write it. -/
def plain : Value → Except Fault String
  | .text s => .ok s
  | .mode m => .ok ("CompletionMode." ++ m.name)
  | .moment m => .ok (m.textWith " ")
  | .date d => .ok d.text
  | .time t => .ok t.text
  | .object o => .ok (naturePlain o.nature)
  | v => v.shown

end Attest.Value
