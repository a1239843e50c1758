import Attest.Proofs.Collecting

/-!
# Tame steps and writable runs

Three things that keep a run from raising anything but failures. A step is tame if its messages are
texts and if every call in it is guarded. A run is writable if nothing is met that cannot be
written, not in what is shown, nor in what is answered, nor in the number of entries gone through:
no integer that is too long, and no pattern in bytes. And no number of a type of its own is to be
read as a date where nothing is guarded yet.

* `Step.isTame`: a property of the step alone. The flag allows calls that are not guarded.
* `Step.bareKind?`: the coercion that a step begins with.
* `Step.staysWritable`: a property of the run of a step on arguments in a world.
-/

namespace Attest

/-- Whether a value can serve as a message: a text, or null where there is none. -/
def Value.isMessage (v : Value) : Bool :=
  match v with
  | .null => true
  | v => v.isTemplate

/-! ## Tame steps -/

mutual

/-- Whether what is called is tame. Unless `raw`, only steps can be, as others raise what they
want. -/
def Callable.isTame (raw : Bool) : Callable → Bool
  | .step s => s.isTame raw
  | .function _ | .type _ | .nothing _ => raw

/-- Checks are guarded where they are asked. -/
def Check.isTame : Check → Bool
  | .satisfies f => f.isTame true
  | _ => true

def Change.isTame (raw : Bool) : Change → Bool
  | .apply f => f.isTame raw
  | _ => raw

/-- Defaults are guarded where they are produced. -/
def Default.isTame : Default → Bool
  | .produced f => f.isTame true
  | _ => true

/-- Whether all messages of a step are texts and, unless `raw`, all its calls are guarded. -/
def Step.isTame (raw : Bool) : Step → Bool
  | .accept => true
  | .coerce _ message => message.isMessage
  | .call f => f.isTame raw
  | .guarded s _ => s.isTame true
  | .change c => c.isTame raw
  | .check c message _ _ => message.isMessage && c.isTame
  | .andThen s t => s.isTame raw && t.isTame true
  | .optional s default => s.isTame true && default.isTame
  | .union alternatives message => message.isMessage && Step.areTame alternatives
  | .fields _ message entries => message.isMessage && Step.fieldsAreTame entries
  | .elements message element => raw && message.isMessage && element.isTame true
  | .inside _ s => s.isTame raw

/-- Alternatives are guarded where they are tried. -/
def Step.areTame : List Step → Bool
  | [] => true
  | s :: rest => s.isTame true && Step.areTame rest

/-- Fields are guarded where they are judged. -/
def Step.fieldsAreTame : List (Value × Step) → Bool
  | [] => true
  | (_, s) :: rest => s.isTame true && Step.fieldsAreTame rest

end

/-! ## What a step begins with -/

mutual

def Callable.bareKind? : Callable → Option Kind
  | .step s => s.bareKind?
  | _ => none

def Change.bareKind? : Change → Option Kind
  | .apply f => f.bareKind?
  | _ => none

/-- The kind of the coercion that the arguments of a step meet before anything is guarded, if there
is one. -/
def Step.bareKind? : Step → Option Kind
  | .coerce kind _ => some kind
  | .call f => f.bareKind?
  | .change c => c.bareKind?
  | .andThen s _ | .inside _ s => s.bareKind?
  | _ => none

end

/-- Whether a value is none of those that the kind cannot deal with: numbers of a type of their own
are no seconds. -/
def Kind.isReadable (kind? : Option Kind) (v : Value) : Bool :=
  kind? != some .date || v.foreignReal?.isNone

/-! ## Writable runs -/

/-- Whether an outcome can be written: a value, or a failure. -/
def isWritableOutcome : Except Raised Value → Bool
  | .ok v => v.isWritable
  | .error r => r.isWritable

/-- The argument that takes the place of a missing one. -/
def Program.Substitute.outcome (got : Value) : Program.Substitute → Except Raised Value
  | .none => .ok got
  | .value v => .ok v
  | .produced p => (p []).outcome

mutual

/-- Whether a call answers what can be written. -/
def Callable.staysWritable (w : World) : Callable → List Value → Bool
  | .function f, args => isWritableOutcome (w.reply f args).outcome
  | .type t, args =>
    match Value.construct t args with
    | .ok v => v.isWritable
    | .error _ => true
  | .step s, args => s.staysWritable w (if args.isEmpty then [.missing] else args)
  | .nothing _, _ => true
termination_by structural c => c

def Check.staysWritable (w : World) : Check → List Value → Bool
  | .satisfies f, args => f.staysWritable w args
  | _, _ => true
termination_by structural c => c

def Change.staysWritable (w : World) : Change → List Value → Bool
  | .apply f, args => f.staysWritable w args
  | c, args =>
    match c.applied (firstArgument args) with
    | .ok v => v.isWritable
    | .error _ => true
termination_by structural c => c

def Default.staysWritable (w : World) : Default → Bool
  | .none => true
  | .value v => v.isWritable
  | .produced f => f.staysWritable w []
termination_by structural d => d

/-- Whether all that a run of the step meets after its arguments can be written. -/
def Step.staysWritable (w : World) : Step → List Value → Bool
  | .accept, _ => true
  | .coerce kind _, args =>
    match kind.accepts? (firstArgument args) with
    | .ok (some v) => v.isWritable
    | _ => true
  | .call f, args => f.staysWritable w args
  | .guarded s comparison, args => comparison.isWritable && s.staysWritable w args
  | .change c, args => c.staysWritable w args
  | .check c _ expected _, args => expected.isWritable && c.staysWritable w [firstArgument args]
  | .andThen s t, args =>
    s.staysWritable w args &&
      match (s.program w args).outcome with
      | .ok v => t.staysWritable w [v]
      | .error _ => true
  | .optional s default, args =>
    let got := firstArgument args
    if !got.isNullish then s.staysWritable w args
    else default.staysWritable w &&
      match (default.substitute w).outcome got with
      | .ok v => v.isNullish || s.staysWritable w (v :: args.tail)
      | .error _ => true
  | .union alternatives _, args =>
    Step.choiceStaysWritable w (firstArgument args) alternatives &&
      (Value.int alternatives.length).isWritable
  | .fields mode _ entries, args =>
    match (firstArgument args).entries? with
    | none => true
    | some input =>
      let working := Fields.working mode (entries.map (·.1)) input
      (Value.int working.length).isWritable && working.all fun (key, item) =>
        key.isWritable && Step.fieldStaysWritable w key item entries
  | .elements _ element, args =>
    match (firstArgument args).iterate with
    | .error _ => true
    | .ok items =>
      (Value.int items.length).isWritable && items.all fun item =>
        item.isWritable && element.staysWritable w [item]
  | .inside path s, args => path.all Value.isWritable && s.staysWritable w args
termination_by structural s => s

/-- Of alternatives only those are tried that come before the first that accepts. -/
def Step.choiceStaysWritable (w : World) (v : Value) : List Step → Bool
  | [] => true
  | s :: rest =>
    s.staysWritable w [v] &&
      match (s.program w [v]).outcome with
      | .ok _ => true
      | .error _ => Step.choiceStaysWritable w v rest
termination_by structural alternatives => alternatives

/-- Of the fields the first one with the key counts. -/
def Step.fieldStaysWritable (w : World) (key item : Value) : List (Value × Step) → Bool
  | [] => true
  | (k, s) :: rest =>
    if k.same key then s.staysWritable w [item] else Step.fieldStaysWritable w key item rest
termination_by structural entries => entries

end

/-- Whether all that the call of a validator meets, from its arguments on, can be written. -/
def Validator.staysWritable (v : Validator) (w : World) (args : List Value) : Bool :=
  args.all Value.isWritable &&
    v.step.staysWritable w (if args.isEmpty then [.missing] else args)

/-! ## Messages and fields -/

theorem Value.messageOr_isTemplate {message : Value} (h : message.isMessage = true)
    (fallback : String) : (messageOr message fallback).isTemplate = true := by
  unfold messageOr Value.orElse
  split
  · next ht =>
    unfold Value.isMessage at h
    split at h
    · cases ht
    · exact h
  · rfl

/-- A message can stand as the template of a failure whose comparison is a text. -/
theorem Notice.Parts.isTyped_of_isMessage {p : Notice.Parts} (hpath : p.path = .list [])
    (hm : p.template.isMessage = true) (hc : p.comparison.isTemplate = true) : p.IsTyped := by
  refine ⟨hpath, ?_⟩
  unfold Value.isMessage at hm
  split at hm
  · next hnull => exact .inr ⟨hnull, hc⟩
  · exact .inl hm

/-- What the failure of a whole is made from. -/
def Composite.outline (message : Value) (comparison : String) : Notice.Parts where
  template := message
  comparison := .text comparison

theorem Composite.outline_isTyped {message : Value} (hm : message.isMessage = true)
    (comparison : String) : (outline message comparison).IsTyped :=
  Notice.Parts.isTyped_of_isMessage rfl hm rfl

theorem Composite.outline_areWritable (message : Value) (comparison : String) :
    (outline message comparison).AreWritable := ⟨rfl, rfl, rfl, rfl, by simp [outline]⟩

theorem Step.fieldsAreTame_iff {entries : List (Value × Step)} :
    Step.fieldsAreTame entries = true ↔ ∀ e ∈ entries, e.2.isTame true = true := by
  induction entries with
  | nil => simp [Step.fieldsAreTame]
  | cons e rest ih => simp [Step.fieldsAreTame, ih]

theorem Step.fieldPrograms_eq_map (w : World) (entries : List (Value × Step)) :
    Step.fieldPrograms w entries = entries.map fun e => (e.1, e.2.program w) := by
  induction entries with
  | nil => simp [Step.fieldPrograms]
  | cons e rest ih => simp only [Step.fieldPrograms, List.map_cons, ih]

theorem Step.fieldPrograms_keys (w : World) (entries : List (Value × Step)) :
    (Step.fieldPrograms w entries).map (·.1) = entries.map (·.1) := by
  rw [fieldPrograms_eq_map, List.map_map]
  rfl

end Attest
