import Attest.Call
import Attest.Value.Order

/-!
# Composite programs

The programs of records and lists. All entries are judged in order, whatever becomes of the others;
what they promise for later is worked on side by side; and when all is known, either one failure
with a part for every entry that failed is raised, or the answers are put together.

* `collect`: from entries to an answer, at once or, if some entry promised its own, later.
-/

namespace Attest

/-- One entry of a composite value. -/
inductive Entry where
  /-- To be judged by a program. -/
  | judged (segment item : Value) (p : Program)
  /-- Refused without being judged. -/
  | refused (segment : Value) (f : Except Fault Failure)
  /-- Taken over as it is. -/
  | kept (segment item : Value)

/-- What is known about an entry. -/
inductive Finding where
  | accepted (v : Value)
  | rejected (f : Failure)
  | awaited (item : Value) (handles : List Handle) (p : Promise Value)

namespace Finding

/-- The finding about an entry whose judgement raised something. A cancellation, and a fault in
wording the failure, are raised on. -/
def ofRaised (item : Value) (r : Raised) : Except Raised Finding :=
  match r.promote item (.text "struct") with
  | .failure f => .ok (.rejected f)
  | r => .error r

def promise? : Finding → Option (Promise Value)
  | .awaited _ _ p => some p
  | _ => none

def handles : Finding → List Handle
  | .awaited _ handles _ => handles
  | _ => []

/-- The finding once the promise is kept. The outcomes of promises are told apart by what they are,
and so the object of an exception counts as raised even where it was answered. -/
def settled : Finding → Except Raised Finding
  | .awaited item _ p =>
    match p.outcome with
    | .ok v =>
      match v.trouble? with
      | some r => ofRaised item r
      | none => .ok (.accepted v)
    | .error r => ofRaised item r
  | f => .ok f

/-- Whether the promise of the finding ends in a cancellation. -/
def isCancelled : Finding → Bool
  | .awaited _ _ ⟨_, .error .cancelled⟩ => true
  | _ => false

end Finding

/-- Judges one entry. -/
def Entry.find : Entry → Call (Value × Finding)
  | .judged segment item p =>
    let c := p [item]
    match c.answer with
    | .returned v => ⟨c.events, .returned (segment, .accepted v)⟩
    | .raised r =>
      match Finding.ofRaised item r with
      | .ok f => ⟨c.events, .returned (segment, f)⟩
      | .error r => ⟨c.events, .raised r⟩
    | .promised handles p => ⟨c.events, .returned (segment, .awaited item handles p)⟩
  | .refused segment (.ok f) => Call.returned (segment, .rejected f)
  | .refused _ (.error e) => Call.raised (.fault e)
  | .kept segment item => Call.returned (segment, .accepted item)

/-- Judges all entries in order. -/
def Entry.findAll : List Entry → Call (List (Value × Finding))
  | [] => Call.returned []
  | e :: rest => e.find.next fun found => (findAll rest).next fun more => Call.returned (found :: more)

/-- How the parts of a composite value are put together again. -/
structure Composite where
  /-- The answer for the accepted entries. -/
  build : List (Value × Value) → Value
  /-- The failure of the whole, without its parts. -/
  failure : Except Fault Failure

namespace Composite

/-- The failures among the findings, with their segments. -/
def failures (findings : List (Value × Finding)) : List (Value × Failure) :=
  findings.filterMap fun
    | (segment, .rejected f) => some (segment, f)
    | _ => none

/-- The answers among the findings, with their segments. -/
def answers (findings : List (Value × Finding)) : List (Value × Value) :=
  findings.filterMap fun
    | (segment, .accepted v) => some (segment, v)
    | _ => none

/-- The failure of the whole with its parts, each located at its segment. -/
def withParts (whole : Except Fault Failure) (parts : List (Value × Failure)) :
    Except Fault Failure := do
  parts.foldlM (fun parent (segment, child) => parent.addChild child segment) (← whole)

/-- The end of a judgement: what is logged, and the outcome. -/
def conclude (c : Composite) (findings : List (Value × Finding)) :
    List Event × Except Raised Value :=
  match failures findings with
  | [] => ([], .ok (c.build (answers findings)))
  | parts =>
    match withParts c.failure parts with
    | .error e => ([], .error (.fault e))
    | .ok f =>
      let line := toString parts.length ++ " of " ++ toString findings.length ++
        " entries failed validation"
      ([.logged ⟨.debug, line⟩], .error (.failure f))

/-- The findings once all promises are kept. A cancellation among them comes first. -/
def settleAll (findings : List (Value × Finding)) : Except Raised (List (Value × Finding)) :=
  if findings.any (·.2.isCancelled) then .error .cancelled
  else findings.mapM fun (segment, f) => do return (segment, ← f.settled)

/-- The judgement that waits for the promises among the findings. -/
def awaiting (c : Composite) (findings : List (Value × Finding)) : Promise Value :=
  let tasks := (findings.filterMap (·.2.promise?)).map (·.work)
  match settleAll findings with
  | .error r => ⟨.fork tasks .done, .error r⟩
  | .ok findings =>
    let (events, outcome) := c.conclude findings
    ⟨.fork tasks (Work.ofEvents events .done), outcome⟩

/-- Judges the entries and puts the answers together. -/
def collect (c : Composite) (entries : List Entry) : Call Value :=
  (Entry.findAll entries).next fun findings =>
    if (findings.any fun (_, f) => f.promise?.isSome) then
      ⟨[], .promised (findings.flatMap (·.2.handles)) (c.awaiting findings)⟩
    else
      let (events, outcome) := c.conclude findings
      (Call.ofExcept outcome).after events

end Composite

/-! ## Records -/

namespace Fields

/-- The failure of a value that is no map. -/
def notAMap (v : Value) : Raised :=
  Raised.fail
    { template := .text "Expected value to be an object, got $\x7btype\x7d", got := v
      expected := .text "object", comparison := .text "type"
      extra := [("type", .text v.describe)] }

/-- The failure of a key that the schema does not know. -/
def unknownKey (key item : Value) : Except Fault Failure :=
  Failure.make
    { template := .text "Unknown property passed \"$\x7bkey\x7d\"", got := item
      comparison := .text "unknownProperty", key } []

/-- The keys and items to go through: those of the input, then the absent keys of the schema. -/
def working (mode : Mode) (keys : List Value) (input : List (Value × Value)) :
    List (Value × Value) :=
  if mode.fillsMissing then
    input ++ (keys.filter fun k => !Value.hasKey k input).map fun k => (k, .missing)
  else input

/-- The program of a key. -/
def programFor? (validators : List (Value × Program)) (key : Value) : Option Program :=
  (validators.find? fun (k, _) => k.same key).map (·.2)

/-- What is done with one key and its item; nothing with an unknown key that is dropped. -/
def entry? (mode : Mode) (validators : List (Value × Program)) (key item : Value) : Option Entry :=
  match programFor? validators key with
  | some p => some (.judged key item p)
  | none =>
    match mode with
    | .strict => some (.refused key (unknownKey key item))
    | .all => some (.kept key item)
    | .defined | .given => none

/-- The record of the answers. An answer that is missing is dropped or shown as null. -/
def build (mode : Mode) (answers : List (Value × Value)) : Value :=
  .map (answers.filterMap fun (key, v) =>
    if v.isMissing then (if mode.dropsMissing then none else some (key, .null)) else some (key, v))

end Fields

/-- The program of a record: judges each key of a map by the program of the schema's key. -/
def Program.fields (mode : Mode) (message : Value) (validators : List (Value × Program)) : Program :=
  fun args =>
    let v := firstArgument args
    match v.entries? with
    | none => Call.raised (Fields.notAMap v)
    | some input =>
      let working := Fields.working mode (validators.map (·.1)) input
      Composite.collect
        ⟨Fields.build mode,
         Failure.make { template := message, comparison := .text "struct" } []⟩
        (working.filterMap fun (key, item) => Fields.entry? mode validators key item)

/-- The program of a list: judges each item by one program. -/
def Program.elements (message : Value) (element : Program) : Program := fun args =>
  match (firstArgument args).iterate with
  | .error e => Call.raised (.fault e)
  | .ok items =>
    Composite.collect
      ⟨fun answers => .list (answers.map (·.2)),
       Failure.make { template := message, comparison := .text "array" } []⟩
      ((List.range items.length).zip items |>.map fun (i, item) => .judged (.int i) item element)

end Attest
