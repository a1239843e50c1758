import Attest.Call

/-!
# Combinators

Ways to build a program from others: with trouble turned into failures, one after the other, under a
predicate, with a default for missing input, as an ordered choice, and below a path. Each has two
bodies: what it does with an answer that is there at once, and the work that waits for one that is
promised. The second is called after the first, with `await` in front.

* `Program.guarded`, `Program.ifPresent`, `Program.inside`: trouble is caught and replaced.
* `Program.andThen`, `Program.satisfying`: the answer is passed on.
* `Program.optional`, `Program.union`: what comes of one program decides whether another one is
  asked.
-/

namespace Attest.Program

/-- The work of a guarded program: waits for its output. -/
def awaitGuarded (value comparison : Value) (output : Promise Value) : Promise Value :=
  output.recover fun
    | .failure f => Promise.raised (.failure f)
    | r => Promise.raised (r.promote value comparison)

/-- The program with every other trouble turned into a failure about its first argument. -/
def guarded (p : Program) (comparison : Value) : Program := fun args =>
  let value := firstArgument args
  match p args with
  | ⟨events, .returned output⟩ => ⟨events, .returned output⟩
  | ⟨events, .raised (.failure f)⟩ => ⟨events, .raised (.failure f)⟩
  | ⟨events, .raised r⟩ => ⟨events, .raised (r.promote value comparison)⟩
  | ⟨events, .promised handles output⟩ =>
    ⟨events, .promised handles (awaitGuarded value comparison output)⟩

/-- The second program, guarded, on the answer of the first. -/
def andThen (p q : Program) : Program := fun args =>
  (p args).proceed fun v => (q.guarded (.text "transform")) [v]

/-! ## Predicates -/

/-- The failure of a value that a predicate does not hold of. -/
def refuted (message expected : Value) (comparison : String) (v : Value) : Raised :=
  Raised.fail { template := message, got := v, expected, comparison := .text comparison }

/-- Answers the argument if the predicate answers something true. -/
def satisfying (predicate : Program) (message expected : Value) (comparison : String) : Program :=
  fun args =>
  let v := firstArgument args
  ((predicate.guarded (.text comparison)) [v]).proceed fun verdict =>
    if verdict.isTruthy then Call.returned v else Call.raised (refuted message expected comparison v)

/-! ## Missing input -/

/-- The failure of a default that could not be produced; `got` is the argument it stands in for. -/
def unproduced (got : Value) : Raised → Raised
  | .cancelled => .cancelled
  | r => Raised.fail
    { template := .text "Error generating default value: $\x7breason\x7d", got
      comparison := .text "optional", extra := [("reason", .text r.reason)] }

/-- The failure of a value that was put in place of a missing one, with the failure that it met. -/
def unfitDefault (v : Value) (f : Failure) : Raised :=
  Raised.ofFailure (Failure.make
    { template := .text "Default value $\x7bgot\x7d failed validation", got := v
      comparison := .text "optional" } [f])

/-- The failure of a value that met other trouble. -/
def unchecked (v : Value) : Raised :=
  Raised.fail
    { template := .text "Error while validating optional value - $\x7bgot\x7d", got := v
      comparison := .text "optional" }

/-- The work of an optional program on a value that is there: waits for the output. -/
def awaitPresent (substituted : Bool) (v : Value) (output : Promise Value) : Promise Value :=
  output.recover fun
    | .failure f => Promise.raised (if substituted then unfitDefault v f else .failure f)
    | .cancelled => Promise.raised .cancelled
    | _ => Promise.raised (unchecked v)

/-- The program on arguments of which the first may still be missing; then it is answered as it
is. -/
def ifPresent (p : Program) (substituted : Bool) (args : List Value) : Call Value :=
  let v := firstArgument args
  if v.isNullish then Call.returned v
  else
    match p args with
    | ⟨events, .returned output⟩ => ⟨events, .returned output⟩
    | ⟨events, .raised (.failure f)⟩ =>
      ⟨events, .raised (if substituted then unfitDefault v f else .failure f)⟩
    | ⟨events, .raised .cancelled⟩ => ⟨events, .raised .cancelled⟩
    | ⟨events, .raised _⟩ => ⟨events, .raised (unchecked v)⟩
    | ⟨events, .promised handles output⟩ =>
      ⟨events, .promised handles (awaitPresent substituted v output)⟩

/-- What stands in for a missing argument. -/
inductive Substitute where
  | none
  | value (v : Value)
  | produced (p : Program)

/-- The work of an optional program whose default is promised: waits for the default, and goes on
with it in the place of `got`. -/
def awaitProduced (p : Program) (got : Value) (rest : List Value) (produced : Promise Value) :
    Promise Value :=
  (produced.recover fun r => Promise.raised (unproduced got r)).next fun v =>
    (p.ifPresent true (v :: rest)).awaited

/-- The program with a substitute for a missing first argument. -/
def optional (p : Program) (substitute : Substitute) : Program := fun args =>
  let got := firstArgument args
  if !got.isNullish then p.ifPresent false args
  else
    match substitute with
    | .none => p.ifPresent false (got :: args.tail)
    | .value v => p.ifPresent true (v :: args.tail)
    | .produced f =>
      match f [] with
      | ⟨events, .returned v⟩ => (p.ifPresent true (v :: args.tail)).after events
      | ⟨events, .raised r⟩ => ⟨events, .raised (unproduced got r)⟩
      | ⟨events, .promised handles produced⟩ =>
        ⟨events, .promised handles (p.awaitProduced got args.tail produced)⟩

/-! ## Choice -/

/-- The failure of a value that no alternative accepts. -/
def unmatched (message v : Value) (failures : List Failure) : Raised :=
  Raised.ofFailure do
    let parent ← Failure.make { template := message, got := v, comparison := .text "union" } []
    failures.foldlM (fun parent child => parent.addChild child .null) parent

/-- The work of a choice: tries what is left of the alternatives, and waits for each of them. -/
def awaitFirst (message v : Value) : (failures : List Failure) → List Program → Promise Value
  | failures, [] => Promise.raised (unmatched message v failures)
  | failures, p :: rest =>
    (p [v]).toPromise.recover fun r =>
      match r.promote v (.text "union") with
      | .failure f => awaitFirst message v (failures ++ [f]) rest
      | r => Promise.raised r

/-- The work of a choice one of whose alternatives has promised its answer: waits for that, and goes
on with the alternatives behind it. -/
def awaitRest (message v : Value) (pending : Promise Value) (failures : List Failure)
    (rest : List Program) : Promise Value :=
  pending.recover fun r =>
    match r.promote v (.text "union") with
    | .failure f => awaitFirst message v (failures ++ [f]) rest
    | r => Promise.raised r

/-- The first alternative that accepts, after those that failed already. -/
def firstOf (message v : Value) : (failures : List Failure) → List Program → Call Value
  | failures, [] => Call.raised (unmatched message v failures)
  | failures, p :: rest =>
    match p [v] with
    | ⟨events, .returned output⟩ => ⟨events, .returned output⟩
    | ⟨events, .raised r⟩ =>
      match r.promote v (.text "union") with
      | .failure f => (firstOf message v (failures ++ [f]) rest).after events
      | r => ⟨events, .raised r⟩
    | ⟨events, .promised handles pending⟩ =>
      ⟨events, .promised handles (awaitRest message v pending failures rest)⟩

/-- Tries the alternatives in order. -/
def union (alternatives : List Program) (message : Value) : Program := fun args =>
  firstOf message (firstArgument args) [] alternatives

/-! ## Paths -/

/-- The work of a program below a path: waits for its output. -/
def awaitInside (path : List Value) (output : Promise Value) : Promise Value :=
  output.recover fun
    | .failure f => Promise.raised (Raised.ofFailure (f.inside path))
    | r => Promise.raised r

/-- The program with a path in front of the trail of every failure. -/
def inside (path : List Value) (p : Program) : Program := fun args =>
  match p args with
  | ⟨events, .returned output⟩ => ⟨events, .returned output⟩
  | ⟨events, .raised (.failure f)⟩ => ⟨events, .raised (Raised.ofFailure (f.inside path))⟩
  | ⟨events, .raised r⟩ => ⟨events, .raised r⟩
  | ⟨events, .promised handles output⟩ => ⟨events, .promised handles (awaitInside path output)⟩

end Attest.Program
