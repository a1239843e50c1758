import Attest.Proofs.Cancellation
import Attest.Proofs.Tame

/-!
# Containment

A tame step raises nothing but failures, on any writable run, at once or later: whatever else goes
wrong inside is caught and becomes a failure, and each failure can be worded. What is caught by
nothing is a number of a type of its own where a date is read.

* `Contained`: what a tame step may come to.
* `Step.contained`: what a tame step comes to on a writable run.
* `Step.fields_concluded`: what a record comes to, by what is found of its keys.
-/

namespace Attest

/-- A value or a failure that can be written, or, if `raw`, other trouble that is no
cancellation. -/
inductive Contained (raw : Bool) : Except Raised Value → Prop
  | ok {v : Value} : v.isWritable = true → Contained raw (.ok v)
  | failure {f : Failure} : f.isWritable = true → Contained raw (.error (.failure f))
  | setup {e : SetupError} : raw = true → Contained raw (.error (.setup e))
  | fault {e : Fault} : raw = true → Contained raw (.error (.fault e))

namespace Contained

variable {raw : Bool} {x : Except Raised Value}

theorem raise (h : Contained false x) (raw : Bool) : Contained raw x := by
  cases h with
  | ok h => exact .ok h
  | failure h => exact .failure h
  | setup h | fault h => cases h

theorem isWritable_ok {v : Value} (h : Contained raw (.ok v)) : v.isWritable = true := by
  cases h
  assumption

theorem isWritable_error {r : Raised} (h : Contained raw (.error r)) : r.isWritable = true := by
  cases h with
  | failure h => exact h
  | setup | fault => rfl

theorem not_cancelled {r : Raised} (h : Contained raw (.error r)) : r ≠ .cancelled := by
  rintro rfl
  cases h

theorem ok_or_failure (h : Contained false x) :
    (∃ v, x = .ok v) ∨ ∃ f, x = .error (.failure f) := by
  cases h with
  | @ok v _ => exact .inl ⟨v, rfl⟩
  | @failure f _ => exact .inr ⟨f, rfl⟩
  | setup h | fault h => cases h

/-- What a user function that is not cancelled answers on a writable run. -/
theorem of_isWritableOutcome (hc : x ≠ .error .cancelled) (h : isWritableOutcome x = true) :
    Contained true x := by
  match x, hc, h with
  | .ok _, _, h => exact .ok h
  | .error (.failure _), _, h => exact .failure h
  | .error (.setup _), _, _ => exact .setup rfl
  | .error (.fault _), _, _ => exact .fault rfl
  | .error .cancelled, hc, _ => exact absurd rfl hc

theorem of_fail {p : Notice.Parts} (ht : p.IsTyped) (hw : p.AreWritable) (raw : Bool) :
    Contained raw (.error (Raised.fail p)) := by
  rw [Raised.fail_eq ht hw]
  exact .failure (Failure.alone_isWritable ht hw)

theorem bind {f : Value → Except Raised Value} (h : Contained raw x)
    (hf : ∀ v, x = .ok v → v.isWritable = true → Contained raw (f v)) :
    Contained raw (x >>= f) := by
  cases h with
  | ok h => exact hf _ rfl h
  | failure h => exact .failure h
  | setup h => exact .setup h
  | fault h => exact .fault h

theorem mapError {raw' : Bool} {f : Raised → Raised} (h : Contained raw x)
    (hf : ∀ r, Contained raw (.error r) → Contained raw' (.error (f r))) :
    Contained raw' (x.mapError f) := by
  cases x with
  | ok v => exact .ok h.isWritable_ok
  | error r => exact hf r h

theorem promote {r : Raised} (h : Contained true (.error r)) {got comparison : Value}
    (hg : got.isWritable = true) (hc : comparison.isWritable = true) (raw : Bool) :
    Contained raw (.error (r.promote got comparison)) := by
  rw [Raised.promote_eq h.not_cancelled hg hc]
  exact .failure (Raised.promoted_isWritable h.isWritable_error hg hc)

end Contained

/-! ## Combinators -/

namespace Program

variable {p q : Program} {args : List Value}

theorem firstArgument_isWritable (h : args.all Value.isWritable = true) :
    (firstArgument args).isWritable = true := by
  cases args with
  | nil => rfl
  | cons v rest =>
    simp only [List.all_cons, Bool.and_eq_true] at h
    exact h.1

/-- The arguments with another one in the place of the first. -/
theorem substituted_isWritable (h : args.all Value.isWritable = true) {v : Value}
    (hv : v.isWritable = true) : (v :: args.tail).all Value.isWritable = true := by
  simp only [List.all_cons, Bool.and_eq_true, List.all_eq_true] at h ⊢
  exact ⟨hv, fun u hu => h u (List.mem_of_mem_tail hu)⟩

theorem guarded_contained {comparison : Value} (hargs : args.all Value.isWritable = true)
    (hc : comparison.isWritable = true) (h : Contained true (p args).outcome) :
    Contained false ((p.guarded comparison) args).outcome := by
  rw [guarded_eq, Call.outcome_mapRaised]
  exact h.mapError fun r hr => hr.promote (firstArgument_isWritable hargs) hc false

theorem satisfying_contained {message expected : Value} {comparison : String}
    (hargs : args.all Value.isWritable = true) (hm : message.isMessage = true)
    (he : expected.isWritable = true) (h : Contained true (p [firstArgument args]).outcome) :
    Contained false ((p.satisfying message expected comparison) args).outcome := by
  have hv := firstArgument_isWritable hargs
  rw [satisfying_eq, Call.outcome_next]
  refine (guarded_contained (by simpa using hv) (Value.isWritable_text comparison) h).bind ?_
  intro verdict _ _
  split
  · exact .ok hv
  · unfold refuted
    exact Contained.of_fail (Notice.Parts.isTyped_of_isMessage rfl hm rfl)
      ⟨hv, he, Value.isWritable_text comparison, rfl, by simp⟩ false

theorem andThen_contained {raw : Bool} (h : Contained raw (p args).outcome)
    (hq : ∀ v, (p args).outcome = .ok v → v.isWritable = true → Contained true (q [v]).outcome) :
    Contained raw ((p.andThen q) args).outcome := by
  rw [andThen_eq, Call.outcome_next]
  refine h.bind fun v hv hvw => ?_
  have hargs : [v].all Value.isWritable = true := by simpa using hvw
  exact (guarded_contained hargs (Value.isWritable_text "transform") (hq v hv hvw)).raise raw

theorem unproduced_contained {got : Value} (hg : got.isWritable = true) {r : Raised}
    (h : Contained true (.error r)) : Contained false (.error (unproduced got r)) := by
  unfold unproduced
  split
  · cases h
  · refine Contained.of_fail ?_ ?_ false
    · exact ⟨rfl, .inl rfl⟩
    · exact ⟨hg, rfl, rfl, rfl, Notice.Parts.isWritable_of_mem_text⟩

theorem optionalTrouble_contained (substituted : Bool) {v : Value} (hv : v.isWritable = true)
    {r : Raised} (h : Contained true (.error r)) :
    Contained false (.error (optionalTrouble substituted v r)) := by
  unfold optionalTrouble
  split
  · cases h
  · next f =>
    split
    · have hone : (Value.int (1 : Nat)).isWritable = true :=
        Value.isWritable_int_of_lt_pow (k := 1) (by decide) (by decide)
      have contained : ∀ parts : Notice.Parts, parts.IsTyped → parts.AreWritable →
          Contained false (.error (Raised.ofFailure (Failure.make parts [f]))) := by
        intro parts ht hw
        have hmake : Failure.make parts [f] = .ok (Failure.worded parts.head [f]) :=
          Failure.make_eq ht hw hone
        rw [hmake]
        refine .failure (Failure.worded_head_isWritable ht hw hone fun g hg => ?_)
        rw [List.mem_singleton.1 hg]
        exact h.isWritable_error
      apply contained
      · exact ⟨rfl, .inl rfl⟩
      · exact ⟨hv, rfl, rfl, rfl, by simp⟩
    · exact .failure h.isWritable_error
  · refine Contained.of_fail ?_ ?_ false
    · exact ⟨rfl, .inl rfl⟩
    · exact ⟨hv, rfl, rfl, rfl, by simp⟩

theorem ifPresent_contained (substituted : Bool) (hargs : args.all Value.isWritable = true)
    (h : (firstArgument args).isNullish = false → Contained true (p args).outcome) :
    Contained false (p.ifPresent substituted args).outcome := by
  have hv := firstArgument_isWritable hargs
  rw [ifPresent_eq]
  split
  · exact .ok hv
  · next hnull =>
    rw [Call.outcome_mapRaised]
    exact (h (by simpa using hnull)).mapError fun _ hr =>
      optionalTrouble_contained substituted hv hr

theorem optional_contained {s : Substitute} (hargs : args.all Value.isWritable = true)
    (hs : (firstArgument args).isNullish = true → Contained true (s.outcome (firstArgument args)))
    (hp : (firstArgument args).isNullish = false → Contained true (p args).outcome)
    (hq : (firstArgument args).isNullish = true → ∀ v, s.outcome (firstArgument args) = .ok v →
      v.isNullish = false → Contained true (p (v :: args.tail)).outcome) :
    Contained false ((p.optional s) args).outcome := by
  have hgot := firstArgument_isWritable hargs
  cases hnull : (firstArgument args).isNullish with
  | false =>
    rw [optional_present hnull]
    exact ifPresent_contained false hargs hp
  | true =>
    cases s with
    | none =>
      simp only [optional, hnull, Bool.not_true, Bool.false_eq_true, ↓reduceIte]
      exact ifPresent_contained false (substituted_isWritable hargs hgot) (hq hnull _ rfl)
    | value v =>
      have hv := (hs hnull).isWritable_ok
      simp only [optional, hnull, Bool.not_true, Bool.false_eq_true, ↓reduceIte]
      exact ifPresent_contained true (substituted_isWritable hargs hv) (hq hnull v rfl)
    | produced f =>
      rw [optional_produced hnull, Call.outcome_next, Call.outcome_mapRaised]
      refine ((hs hnull).mapError fun _ hr => unproduced_contained hgot hr).bind fun v hv hw => ?_
      have hv := Attempt.mapError_eq_ok.1 hv
      exact ifPresent_contained true (substituted_isWritable hargs hw) (hq hnull v hv)

theorem unmatched_contained {message v : Value} {failures : List Failure}
    (hm : message.isTemplate = true) (hv : v.isWritable = true)
    (hc : (Value.int failures.length).isWritable = true)
    (h : ∀ f ∈ failures, f.isWritable = true) (raw : Bool) :
    Contained raw (.error (unmatched message v failures)) := by
  have ht : Notice.Parts.IsTyped { template := message, got := v, comparison := .text "union" } :=
    ⟨rfl, .inl hm⟩
  have hw : Notice.Parts.AreWritable
      { template := message, got := v, comparison := .text "union" } :=
    ⟨hv, rfl, rfl, rfl, by simp⟩
  have hzero : Failure.make { template := message, got := v, comparison := .text "union" } [] = _ :=
    Failure.make_eq ht hw Value.isWritable_zero
  have hparts : ∀ part ∈ failures.map fun f => (Value.null, f),
      part.1.isWritable = true ∧ part.2.isWritable = true := by
    intro part hp
    obtain ⟨f, hf, rfl⟩ := List.mem_map.1 hp
    exact ⟨rfl, h f hf⟩
  have hcount : (Value.int (([] : List Failure).length +
      (failures.map fun f => (Value.null, f)).length : Nat)).isWritable = true := by simpa using hc
  have hall := Composite.addChildren_eq (Notice.Parts.head_isWritable ht hw) hcount hparts
  rw [List.foldlM_map] at hall
  unfold unmatched
  rw [hzero, Attempt.ok_bind, hall]
  refine .failure (Failure.worded_head_isWritable ht hw (by simpa using hc) fun f hf => ?_)
  obtain ⟨part, hpart, rfl⟩ := List.mem_map.1 hf
  exact Failure.placed_isWritable (hparts part hpart).2 (hparts part hpart).1

theorem inside_contained {raw : Bool} {path : List Value} (hpath : path.all Value.isWritable = true)
    (h : Contained raw (p args).outcome) : Contained raw ((p.inside path) args).outcome := by
  rw [inside_eq, Call.outcome_mapRaised]
  refine h.mapError fun r hr => ?_
  cases hr with
  | failure hf =>
    simp only [Failure.inside_eq hpath hf]
    split
    · exact .failure hf
    · exact .failure (Failure.moved_isWritable hpath hf)
  | setup hr => exact .setup hr
  | fault hr => exact .fault hr

end Program

/-! ## Coercion -/

/-- The parts of the failure of a value of the wrong kind. -/
def Kind.misfit (kind : Kind) (message v : Value) : Notice.Parts where
  template := messageOr message "Expected value to be $\x7bexpected\x7d, got $\x7btype\x7d"
  got := v
  expected := .text kind.name
  comparison := .text "type"
  extra := [("type", .text v.describe)]

theorem Kind.misfit_isTyped (kind : Kind) {message v : Value} (hm : message.isMessage = true) :
    (kind.misfit message v).IsTyped := ⟨rfl, .inl (Value.messageOr_isTemplate hm _)⟩

theorem Kind.misfit_areWritable (kind : Kind) {message v : Value} (hv : v.isWritable = true) :
    (kind.misfit message v).AreWritable :=
  ⟨hv, rfl, rfl, rfl, Notice.Parts.isWritable_of_mem_text⟩

theorem Kind.wrongKind_eq (kind : Kind) (message v : Value) :
    wrongKind kind message v = Raised.fail (kind.misfit message v) := rfl

/-- Only an integer that is too long to be written is trouble for a kind, and a number of a type of
its own for a date. -/
theorem Kind.accepts?_error {kind : Kind} {v : Value} {e : Fault} (h : kind.accepts? v = .error e) :
    e = .tooManyDigits ∧ v.isShort = false ∨ Kind.isReadable (some kind) v = false := by
  cases kind with
  | boolean =>
    simp only [accepts?] at h
    split at h
    · cases h
    case h_5 => cases h
    all_goals
      rcases Attempt.bind_eq_error.1 h with h | ⟨_, _, h⟩
      · exact .inl (Value.plain_error h)
      · cases h
  | date =>
    simp only [accepts?] at h
    split at h
    case h_6 =>
      split at h
      · next hreal =>
        refine .inr ?_
        simp [isReadable, hreal]
      · cases h
    all_goals cases h
  | number | integer =>
    simp only [accepts?] at h
    split at h <;> cases h
  | any | string | array | object =>
    simp only [accepts?] at h
    cases h

/-! ## Composites -/

theorem Entry.StaysWritable.judged {segment item : Value} {p : Program}
    (hs : segment.isWritable = true) (hi : item.isWritable = true)
    (h : Contained true (p [item]).outcome) : (Entry.judged segment item p).StaysWritable := by
  refine ⟨.judged hs hi fun r hr => ?_, fun v hv => ?_⟩
  · rw [hr] at h
    exact ⟨h.not_cancelled, h.isWritable_error⟩
  · simp only [found] at hv
    cases hx : (p [item]).judgement with
    | ok u =>
      rw [hx] at hv
      rw [(Call.judgement_eq_ok.1 hx).1] at h
      cases hv
      exact h.isWritable_ok
    | error r =>
      rw [hx] at hv
      cases hv

theorem Composite.collect_contained {c : Composite} {whole : Notice.Parts} {entries : List Entry}
    (hfailure : c.failure = Failure.make whole []) (ht : whole.IsTyped) (hw : whole.AreWritable)
    (hc : (Value.int entries.length).isWritable = true) (h : ∀ e ∈ entries, e.StaysWritable)
    (hbuild : ∀ answers, (∀ answer ∈ answers, answer.1.isWritable = true ∧
      answer.2.isWritable = true) → (c.build answers).isWritable = true) (raw : Bool) :
    Contained raw (c.collect entries).outcome := by
  have hentries : ∀ e ∈ entries, e.IsWritable := fun e he => (h e he).isWritable
  have hfailed := whole_isWritable whole ht hw hc hentries
  rw [collect_eq whole hfailure ht hw hc hentries]
  unfold concluded
  split
  · refine .ok (hbuild _ fun answer ha => ?_)
    obtain ⟨e, he, heq⟩ := List.mem_map.1 (mem_answers.1 ha)
    simp only [Prod.mk.injEq] at heq
    exact ⟨heq.1 ▸ (hentries e he).segment, (h e he).accepted _ heq.2⟩
  · exact .failure hfailed

/-- A field that is judged is judged by what tames its trouble; one that is refused has a
failure. -/
theorem Fields.entry?_staysWritable {mode : Mode} {validators : List (Value × Program)}
    {key item : Value} {e : Entry} (hk : key.isWritable = true) (hi : item.isWritable = true)
    (hp : ∀ p, programFor? validators key = some p → Contained true (p [item]).outcome)
    (he : entry? mode validators key item = some e) : e.StaysWritable := by
  rcases entry?_cases he with ⟨p, hfound, rfl⟩ | rfl | rfl
  · exact .judged hk hi (hp p hfound)
  · rw [unknownKey_eq hk hi]
    exact ⟨.refused hk (unknown_isWritable hk hi), fun v hv => by cases hv⟩
  · refine ⟨.kept hk hi, fun v hv => ?_⟩
    cases hv
    exact hi

/-- The entries of a record whose fields are all judged by what tames their trouble. -/
theorem Fields.entries_stayWritable {mode : Mode} {validators : List (Value × Program)} {v : Value}
    {input : List (Value × Value)} (hv : v.isWritable = true) (hinput : v.entries? = some input)
    (h : ∀ e ∈ working mode (validators.map (·.1)) input, e.1.isWritable = true ∧
      ∀ p, programFor? validators e.1 = some p → Contained true (p [e.2]).outcome) :
    ∀ e ∈ (working mode (validators.map (·.1)) input).filterMap
      (fun (key, item) => entry? mode validators key item), e.StaysWritable := by
  have hitems := working_isWritable mode (validators.map (·.1)) hv hinput
  intro e he
  obtain ⟨⟨key, item⟩, hmem, heq⟩ := List.mem_filterMap.1 he
  exact entry?_staysWritable (h _ hmem).1 (hitems _ hmem) (h _ hmem).2 heq

namespace Program

variable {args : List Value}

theorem fields_contained {mode : Mode} {message : Value} {validators : List (Value × Program)}
    (hargs : args.all Value.isWritable = true) (hm : message.isMessage = true)
    (h : ∀ input, (firstArgument args).entries? = some input →
      let working := Fields.working mode (validators.map (·.1)) input
      (Value.int working.length).isWritable = true ∧ ∀ e ∈ working, e.1.isWritable = true ∧
        ∀ p, Fields.programFor? validators e.1 = some p → Contained true (p [e.2]).outcome) :
    Contained false ((fields mode message validators) args).outcome := by
  have hv := firstArgument_isWritable hargs
  unfold fields
  simp only
  split
  · rw [Call.outcome_raised, Fields.notAMap_eq]
    exact Contained.of_fail (Fields.misfit_isTyped _) (Fields.misfit_areWritable hv) false
  · next input hinput =>
    obtain ⟨hc, hall⟩ := h input hinput
    refine Composite.collect_contained rfl (Composite.outline_isTyped hm "struct")
      (Composite.outline_areWritable message "struct") ?_ ?_
        (fun _ => Fields.build_isWritable) false
    · exact Value.isWritable_int_of_le (List.length_filterMap_le _ _) hc
    · exact Fields.entries_stayWritable hv hinput hall

theorem pure_contained {f : Value → Except Fault Value}
    (h : ∀ v, f (firstArgument args) = .ok v → v.isWritable = true) :
    Contained true ((Program.pure f) args).outcome := by
  unfold Program.pure
  cases hx : f (firstArgument args) with
  | ok v => exact .ok (h v hx)
  | error e => exact .fault rfl

theorem coerce_contained {raw : Bool} {kind : Kind} {message : Value}
    (hargs : args.all Value.isWritable = true) (hm : message.isMessage = true)
    (hreadable : raw = true ∨ Kind.isReadable (some kind) (firstArgument args) = true)
    (h : (match kind.accepts? (firstArgument args) with
      | .ok (some v) => v.isWritable
      | _ => true) = true) :
    Contained raw (Call.ofExcept (kind.coerce message (firstArgument args))).outcome := by
  have hv := firstArgument_isWritable hargs
  rw [Call.outcome_ofExcept]
  unfold Kind.coerce
  cases hx : kind.accepts? (firstArgument args) with
  | ok answer =>
    cases answer with
    | some v =>
      rw [hx] at h
      exact .ok h
    | none =>
      exact Contained.of_fail (Kind.misfit_isTyped kind hm) (Kind.misfit_areWritable kind hv) raw
  | error e =>
    rcases hreadable with rfl | hreadable
    · exact .fault rfl
    · rcases Kind.accepts?_error hx with ⟨-, hlong⟩ | hforeign
      · rw [Value.isWritable_eq_false_of_isShort hlong] at hv
        cases hv
      · rw [hreadable] at hforeign
        cases hforeign

theorem elements_contained {message : Value} {element : Program} (hm : message.isMessage = true)
    (h : ∀ items, (firstArgument args).iterate = .ok items →
      (Value.int items.length).isWritable = true ∧ ∀ item ∈ items, item.isWritable = true ∧
        Contained true (element [item]).outcome) :
    Contained true ((elements message element) args).outcome := by
  unfold elements
  split
  · exact .fault rfl
  · next items hitems =>
    obtain ⟨hc, hall⟩ := h items hitems
    refine Composite.collect_contained rfl (Composite.outline_isTyped hm "array")
      (Composite.outline_areWritable message "array") (by simpa using hc) ?_ ?_ true
    · intro e he
      obtain ⟨⟨i, item⟩, hmem, rfl⟩ := List.mem_map.1 he
      obtain ⟨hi, hitem⟩ := List.of_mem_zip hmem
      have hlt : i < items.length := List.mem_range.1 hi
      exact .judged (Value.isWritable_int_of_le (Nat.le_of_lt hlt) hc) (hall _ hitem).1
        (hall _ hitem).2
    · intro answers ha
      refine Value.isWritable_list.2 fun v hv => ?_
      obtain ⟨answer, hanswer, rfl⟩ := List.mem_map.1 hv
      exact (ha answer hanswer).2

end Program

/-! ## The cases of steps -/

theorem Contained.inWork {raw : Bool} {x : Except Raised Value} (h : Contained raw x) :
    Contained raw (x.mapError Raised.inWork) := by
  refine h.mapError fun r hr => ?_
  cases hr with
  | failure hf => exact .failure hf
  | setup hr => exact .setup hr
  | fault hr =>
    unfold Raised.inWork
    split
    · split <;> exact .fault hr
    · exact .fault hr

/-- Whether what is called is contained, on every writable run. -/
def Callable.IsContained (w : World) (c : Callable) : Prop := ∀ (raw : Bool) (args : List Value),
  c.isTame raw = true → args.all Value.isWritable = true → c.staysWritable w args = true →
    raw = true ∨ Kind.isReadable c.bareKind? (firstArgument args) = true →
      Contained raw (c.program w args).outcome

def Check.IsContained (w : World) (c : Check) : Prop := ∀ args : List Value,
  c.isTame = true → args.all Value.isWritable = true → c.staysWritable w args = true →
    Contained true (c.program w args).outcome

def Change.IsContained (w : World) (c : Change) : Prop := ∀ (raw : Bool) (args : List Value),
  c.isTame raw = true → args.all Value.isWritable = true → c.staysWritable w args = true →
    raw = true ∨ Kind.isReadable c.bareKind? (firstArgument args) = true →
      Contained raw (c.program w args).outcome

def Default.IsContained (w : World) (d : Default) : Prop := ∀ got : Value,
  d.isTame = true → got.isWritable = true → d.staysWritable w = true →
    Contained true ((d.substitute w).outcome got)

/-- Whether a step that is tame comes to a value or a failure that can be written, on every writable
run; one that is tame but for calls that are not guarded may also raise other trouble, but is not
cancelled. -/
def Step.IsContained (w : World) (s : Step) : Prop := ∀ (raw : Bool) (args : List Value),
  s.isTame raw = true → args.all Value.isWritable = true → s.staysWritable w args = true →
    raw = true ∨ Kind.isReadable s.bareKind? (firstArgument args) = true →
      Contained raw (s.program w args).outcome

section
variable {w : World}

theorem Callable.function_isContained (hw : w.NeverCancels) (f : FunctionId) :
    (Callable.function f).IsContained w := by
  intro raw args ht _ hs _
  simp only [isTame] at ht
  simp only [staysWritable] at hs
  have hanswer : Contained true (w.reply f args).outcome := .of_isWritableOutcome (hw f args) hs
  simp only [program, World.call_outcome, ht]
  split
  · exact hanswer.inWork
  · exact hanswer

theorem Callable.type_isContained (t : DataType) : (Callable.type t).IsContained w := by
  intro raw args ht _ hs _
  simp only [isTame] at ht
  simp only [staysWritable] at hs
  simp only [program, ht]
  cases hx : Value.construct t args with
  | ok v =>
    rw [hx] at hs
    exact .ok hs
  | error e => exact .fault rfl

theorem firstArgument_called (args : List Value) :
    firstArgument (if args.isEmpty then [.missing] else args) = firstArgument args := by
  cases args <;> rfl

theorem called_isWritable {args : List Value} (h : args.all Value.isWritable = true) :
    (if args.isEmpty then [.missing] else args).all Value.isWritable = true := by
  split
  · rfl
  · exact h

theorem Callable.step_isContained {s : Step} (h : s.IsContained w) :
    (Callable.step s).IsContained w := by
  intro raw args ht hargs hs hreadable
  rw [← firstArgument_called args] at hreadable
  exact h raw _ ht (called_isWritable hargs) hs hreadable

theorem Callable.nothing_isContained (type : String) : (Callable.nothing type).IsContained w := by
  intro raw args ht _ _ _
  obtain rfl : raw = true := ht
  exact .fault rfl

theorem Program.holds_contained (now : Calendar.Moment) (c : Check) (args : List Value) :
    Contained true ((Program.pure fun v => do return .bool (← c.holds now v)) args).outcome := by
  refine pure_contained fun v hv => ?_
  obtain ⟨b, -, hb⟩ := Attempt.bind_eq_ok.1 hv
  cases hb
  rfl

namespace Step

variable {s t : Step}

theorem accept_isContained : Step.accept.IsContained w := by
  intro raw args _ hargs _ _
  exact .ok (Program.firstArgument_isWritable hargs)

theorem coerce_isContained (kind : Kind) (message : Value) :
    (Step.coerce kind message).IsContained w := by
  intro raw args ht hargs hs hreadable
  exact Program.coerce_contained hargs ht hreadable hs

theorem guarded_isContained (comparison : Value) (h : s.IsContained w) :
    (Step.guarded s comparison).IsContained w := by
  intro raw args ht hargs hs _
  obtain ⟨hcomparison, hs⟩ := Bool.and_eq_true_iff.1 hs
  exact (Program.guarded_contained hargs hcomparison (h true args ht hargs hs (.inl rfl))).raise raw

theorem check_isContained {c : Check} (message expected : Value) (comparison : String)
    (h : c.IsContained w) : (Step.check c message expected comparison).IsContained w := by
  intro raw args ht hargs hs _
  obtain ⟨hmessage, hcheck⟩ := Bool.and_eq_true_iff.1 ht
  obtain ⟨hexpected, hs⟩ := Bool.and_eq_true_iff.1 hs
  have hone : [firstArgument args].all Value.isWritable = true := by
    simpa using Program.firstArgument_isWritable hargs
  exact (Program.satisfying_contained hargs hmessage hexpected (h _ hcheck hone hs)).raise raw

theorem andThen_isContained (hs : s.IsContained w) (ht : t.IsContained w) :
    (Step.andThen s t).IsContained w := by
  intro raw args htame hargs hrun hreadable
  obtain ⟨hfirst, hthen⟩ := Bool.and_eq_true_iff.1 htame
  obtain ⟨hrun, hnext⟩ := Bool.and_eq_true_iff.1 hrun
  refine Program.andThen_contained (hs raw args hfirst hargs hrun hreadable) fun v hv hvw => ?_
  rw [hv] at hnext
  exact ht true [v] hthen (by simpa using hvw) hnext (.inl rfl)

theorem optional_isContained {default : Default} (h : s.IsContained w)
    (hdefault : default.IsContained w) : (Step.optional s default).IsContained w := by
  intro raw args ht hargs hs _
  simp only [isTame, Bool.and_eq_true] at ht
  simp only [staysWritable] at hs
  simp only [program]
  have hgot := Program.firstArgument_isWritable hargs
  refine (Program.optional_contained hargs (fun hnull => ?_) (fun hnull => ?_)
    fun hnull v hv hvnull => ?_).raise raw
  · simp only [hnull, Bool.not_true, Bool.false_eq_true, ↓reduceIte, Bool.and_eq_true] at hs
    exact hdefault _ ht.2 hgot hs.1
  · simp only [hnull, Bool.not_false, ↓reduceIte] at hs
    exact h true args ht.1 hargs hs (.inl rfl)
  · simp only [hnull, Bool.not_true, Bool.false_eq_true, ↓reduceIte, Bool.and_eq_true, hv, hvnull,
      Bool.false_or] at hs
    have hvw := hdefault _ ht.2 hgot hs.1
    rw [hv] at hvw
    have hrest := Program.substituted_isWritable hargs hvw.isWritable_ok
    exact h true _ ht.1 hrest hs.2 (.inl rfl)

/-- Alternatives are tried one after the other; the failures of those before are kept. -/
theorem choice_contained {message v : Value} {bound : Nat}
    (hbound : (Value.int bound).isWritable = true) (hm : message.isTemplate = true)
    (hv : v.isWritable = true) :
    ∀ {alternatives : List Step}, (∀ s ∈ alternatives, s.IsContained w) →
      areTame alternatives = true → choiceStaysWritable w v alternatives = true →
      ∀ (raw : Bool) (failures : List Failure), (∀ f ∈ failures, f.isWritable = true) →
      failures.length + alternatives.length ≤ bound →
      Contained raw (Program.firstOf message v failures (programs w alternatives)).outcome
  | [], _, _, _, raw, failures, hf, hc =>
    Program.unmatched_contained hm hv (Value.isWritable_int_of_le hc hbound) hf raw
  | s :: rest, h, ht, hs, raw, failures, hf, hc => by
    obtain ⟨hfirst, hlater⟩ := List.forall_mem_cons.1 h
    obtain ⟨htame, ht⟩ := Bool.and_eq_true_iff.1 ht
    obtain ⟨hrun, hrest⟩ := Bool.and_eq_true_iff.1 hs
    have hone := hfirst true [v] htame (by simpa using hv) hrun (.inl rfl)
    change Contained raw (Program.firstOf message v failures
      (s.program w :: programs w rest)).outcome
    rw [Program.firstOf_cons, Call.outcome_recover]
    cases hx : (s.program w [v]).outcome with
    | ok u =>
      rw [hx] at hone
      exact .ok hone.isWritable_ok
    | error r =>
      rw [hx] at hone
      rw [hx] at hrest
      have hunion := Value.isWritable_text "union"
      simp only [Except.tryCatch, Raised.promote_eq hone.not_cancelled hv hunion]
      refine choice_contained hbound hm hv hlater ht hrest raw _ (fun f hmem => ?_) ?_
      · rcases List.mem_append.1 hmem with hmem | hmem
        · exact hf f hmem
        · rw [List.mem_singleton.1 hmem]
          exact Raised.promoted_isWritable hone.isWritable_error hv hunion
      · simp only [List.length_append, List.length_cons, List.length_nil] at hc ⊢
        omega

theorem union_isContained {alternatives : List Step} (message : Value)
    (h : ∀ s ∈ alternatives, s.IsContained w) :
    (Step.union alternatives message).IsContained w := by
  intro raw args ht hargs hs _
  obtain ⟨hmessage, halternatives⟩ := Bool.and_eq_true_iff.1 ht
  obtain ⟨hs, hbound⟩ := Bool.and_eq_true_iff.1 hs
  exact choice_contained hbound (Value.messageOr_isTemplate hmessage _)
    (Program.firstArgument_isWritable hargs) h halternatives hs raw [] (by simp) (by simp)

/-- A key is judged by the first field that has it. -/
theorem field_contained {key item : Value} {p : Program} (hitem : item.isWritable = true) :
    ∀ {entries : List (Value × Step)}, (∀ e ∈ entries, e.2.IsContained w) →
      fieldsAreTame entries = true → fieldStaysWritable w key item entries = true →
      Fields.programFor? (fieldPrograms w entries) key = some p → Contained true (p [item]).outcome
  | [], _, _, _, hp => nomatch hp
  | (k, s) :: rest, h, ht, hs, hp => by
    obtain ⟨hfirst, hlater⟩ := List.forall_mem_cons.1 h
    obtain ⟨htame, ht⟩ := Bool.and_eq_true_iff.1 ht
    simp only [fieldStaysWritable] at hs
    simp only [fieldPrograms, Fields.programFor?, List.find?_cons] at hp
    by_cases hk : k.same key = true
    · simp only [hk, Option.map_some, Option.some.injEq] at hp
      simp only [hk, ↓reduceIte] at hs
      rw [← hp]
      exact hfirst true [item] htame (by simpa using hitem) hs (.inl rfl)
    · simp only [hk] at hp
      simp only [hk, Bool.false_eq_true, ↓reduceIte] at hs
      exact field_contained hitem hlater ht hs hp

theorem fields_isContained {entries : List (Value × Step)} (mode : Mode) (message : Value)
    (h : ∀ e ∈ entries, e.2.IsContained w) : (Step.fields mode message entries).IsContained w := by
  intro raw args ht hargs hs _
  simp only [isTame, Bool.and_eq_true] at ht
  simp only [staysWritable] at hs
  simp only [program]
  refine (Program.fields_contained hargs ht.1 fun input hinput => ?_).raise raw
  have hv := Program.firstArgument_isWritable hargs
  simp only [hinput, Bool.and_eq_true, List.all_eq_true] at hs
  simp only [fieldPrograms_keys]
  refine ⟨hs.1, fun e he => ?_⟩
  have hitem := Fields.working_isWritable mode (entries.map (·.1)) hv hinput e he
  have hstep := hs.2 e he
  exact ⟨hstep.1, fun p hp => field_contained hitem h ht.2 hstep.2 hp⟩

theorem elements_isContained {element : Step} (message : Value) (h : element.IsContained w) :
    (Step.elements message element).IsContained w := by
  intro raw args ht hargs hs _
  simp only [isTame, Bool.and_eq_true] at ht
  simp only [staysWritable] at hs
  simp only [program, ht.1.1]
  refine Program.elements_contained ht.1.2 fun items hitems => ?_
  simp only [hitems, Bool.and_eq_true, List.all_eq_true] at hs
  refine ⟨hs.1, fun item hitem => ⟨(hs.2 item hitem).1, ?_⟩⟩
  exact h true [item] ht.2 (by simpa using (hs.2 item hitem).1) (hs.2 item hitem).2 (.inl rfl)

theorem inside_isContained (path : List Value) (h : s.IsContained w) :
    (Step.inside path s).IsContained w := by
  intro raw args ht hargs hs hreadable
  obtain ⟨hpath, hs⟩ := Bool.and_eq_true_iff.1 hs
  exact Program.inside_contained hpath (h raw args ht hargs hs hreadable)

end Step

/-! ## All steps -/

mutual

theorem Callable.contained (hw : w.NeverCancels) : ∀ c : Callable, c.IsContained w
  | .function f => Callable.function_isContained hw f
  | .type t => Callable.type_isContained t
  | .step s => Callable.step_isContained (s.contained hw)
  | .nothing type => Callable.nothing_isContained type

theorem Check.contained (hw : w.NeverCancels) : ∀ c : Check, c.IsContained w
  | .satisfies f => fun args ht hargs hs => f.contained hw true args ht hargs hs (.inl rfl)
  | .equals _ | .differs _ | .among _ | .notAmong _ | .compares _ _ | .between _ _ | .lengthIs _
  | .lengthCompares _ _ | .notEmpty | .hasMatch _ | .startsWith _ | .endsWith _ | .contains _
  | .integral | .finite | .multipleOf _ | .positive | .negative | .past | .future | .distinct
  | .hasKeys _ | .impossible _ => fun args _ _ _ => by
    simp only [Check.program]
    exact Program.holds_contained _ _ args

theorem Change.contained (hw : w.NeverCancels) : ∀ c : Change, c.IsContained w
  | .apply f => fun raw args => f.contained hw raw args
  | .trim | .lower | .upper | .power _ => fun raw args ht _ hs _ => by
    simp only [Change.isTame] at ht
    simp only [Change.staysWritable] at hs
    simp only [Change.program, ht]
    refine Program.pure_contained fun v hv => ?_
    rw [hv] at hs
    exact hs

theorem Default.contained (hw : w.NeverCancels) : ∀ d : Default, d.IsContained w
  | .none => fun got _ hg _ => by
    simp only [Default.substitute]
    exact .ok hg
  | .value v => fun got _ _ hs => by
    simp only [Default.staysWritable] at hs
    simp only [Default.substitute]
    exact .ok hs
  | .produced f => fun _ ht _ hs => f.contained hw true [] ht rfl hs (.inl rfl)

/-- Where no user function is cancelled, every step is contained. -/
theorem Step.contained (hw : w.NeverCancels) : ∀ s : Step, s.IsContained w
  | .accept => Step.accept_isContained
  | .coerce kind message => Step.coerce_isContained kind message
  | .call f => fun raw args => f.contained hw raw args
  | .guarded s comparison => Step.guarded_isContained comparison (s.contained hw)
  | .change c => fun raw args => c.contained hw raw args
  | .check c message expected comparison =>
    Step.check_isContained message expected comparison (c.contained hw)
  | .andThen s t => Step.andThen_isContained (s.contained hw) (t.contained hw)
  | .optional s default => Step.optional_isContained (s.contained hw) (default.contained hw)
  | .union alternatives message => Step.union_isContained message
      (Step.allContained hw alternatives)
  | .fields mode message entries => Step.fields_isContained mode message
      (Step.fieldsContained hw entries)
  | .elements message element => Step.elements_isContained message (element.contained hw)
  | .inside path s => Step.inside_isContained path (s.contained hw)

theorem Step.allContained (hw : w.NeverCancels) : ∀ alternatives : List Step,
    ∀ s ∈ alternatives, s.IsContained w
  | [] => nofun
  | s :: rest => List.forall_mem_cons.2 ⟨s.contained hw, Step.allContained hw rest⟩

theorem Step.fieldsContained (hw : w.NeverCancels) : ∀ entries : List (Value × Step),
    ∀ e ∈ entries, e.2.IsContained w
  | [] => nofun
  | (_, s) :: rest => List.forall_mem_cons.2 ⟨s.contained hw, Step.fieldsContained hw rest⟩

end

end

/-- A step that is judged under a guard may begin with any coercion. -/
theorem Step.contained_raw {w : World} (hw : w.NeverCancels) (s : Step) (args : List Value)
    (ht : s.isTame true = true) (hargs : args.all Value.isWritable = true)
    (hs : s.staysWritable w args = true) : Contained true (s.program w args).outcome :=
  s.contained hw true args ht hargs hs (.inl rfl)

/-! ## Where nothing is guarded yet -/

theorem Kind.accepts?_unreadable {kind : Kind} {v : Value} (h : isReadable (some kind) v = false) :
    ∃ type, kind.accepts? v = .error (.notWhole type) := by
  cases kind with
  | date =>
    unfold isReadable at h
    cases v with
    | object o =>
      obtain ⟨id, nature⟩ := o
      cases nature with
      | real t explicit text => exact ⟨t.name, rfl⟩
      | bare | trouble t text => cases h
    | _ => cases h
  | _ => cases h

section
variable {w : World}

mutual

theorem Callable.unreadable : ∀ (c : Callable) {args : List Value},
    Kind.isReadable c.bareKind? (firstArgument args) = false →
      ∃ type, (c.program w args).answer = .raised (.fault (.notWhole type))
  | .step s, args, h => by
    rw [← firstArgument_called args] at h
    simp only [Callable.program]
    exact s.unreadable h
  | .function _, _, h | .type _, _, h | .nothing _, _, h => by cases h

theorem Change.unreadable : ∀ (c : Change) {args : List Value},
    Kind.isReadable c.bareKind? (firstArgument args) = false →
      ∃ type, (c.program w args).answer = .raised (.fault (.notWhole type))
  | .apply f, args, h => by
    simp only [Change.program]
    exact f.unreadable h
  | .trim, _, h | .lower, _, h | .upper, _, h | .power _, _, h => by cases h

/-- A step that begins with a coercion which cannot deal with its argument raises what the coercion
does. -/
theorem Step.unreadable : ∀ (s : Step) {args : List Value},
    Kind.isReadable s.bareKind? (firstArgument args) = false →
      ∃ type, (s.program w args).answer = .raised (.fault (.notWhole type))
  | .coerce kind message, args, h => by
    obtain ⟨type, ht⟩ := Kind.accepts?_unreadable h
    exact ⟨type, by simp only [Step.program, Kind.coerce, ht, Call.ofExcept, Call.raised]⟩
  | .call f, args, h => by
    simp only [Step.program]
    exact f.unreadable h
  | .change c, args, h => by
    simp only [Step.program]
    exact c.unreadable h
  | .andThen s t, args, h => by
    obtain ⟨type, ht⟩ := s.unreadable h
    refine ⟨type, ?_⟩
    simp only [Step.program, Program.andThen, Call.proceed, ht]
  | .inside path s, args, h => by
    obtain ⟨type, ht⟩ := s.unreadable h
    have hcall :
      s.program w args = ⟨(s.program w args).events, .raised (.fault (.notWhole type))⟩ := by
      rw [← ht]
    refine ⟨type, ?_⟩
    simp only [Step.program, Program.inside]
    rw [hcall]
  | .accept, _, h | .guarded _ _, _, h | .check _ _ _ _, _, h | .optional _ _, _, h
  | .union _ _, _, h
  | .fields _ _ _, _, h | .elements _ _, _, h => by cases h

end

end

/-! ## Calls with one argument -/

namespace Validator

variable {u : Validator} {w : World} {v : Value}

theorem settle_one (u : Validator) (w : World) (v : Value) :
    (u.call w [v]).settle.2 = (u.step.program w [v]).outcome := Call.settle_snd _

theorem staysWritable_one :
    u.staysWritable w [v] = true ↔ v.isWritable = true ∧ u.step.staysWritable w [v] = true := by
  simp [staysWritable]

end Validator

/-- The outcome of a record is the conclusion from what is found of its keys, which can all be
written. -/
theorem Step.fields_concluded {w : World} (hw : w.NeverCancels) {mode : Mode}
    {fields : List (Value × Step)} (hf : Step.fieldsAreTame fields = true) {message v : Value}
    {input : List (Value × Value)} (hm : message.isMessage = true)
    (hinput : v.entries? = some input) (hv : v.isWritable = true)
    (hrun : (Step.fields mode message fields).staysWritable w [v] = true) :
    ((Step.fields mode message fields).program w [v]).outcome =
      Composite.concluded (Fields.build mode) (Composite.outline message "struct").head
        (((Fields.working mode (fields.map (·.1)) input).filterMap fun (key, item) =>
          Fields.entry? mode (Step.fieldPrograms w fields) key item).map fun e =>
            (e.segment, e.found)) ∧
    ∀ e ∈ Fields.working mode (fields.map (·.1)) input, e.1.isWritable = true ∧
    e.2.isWritable = true := by
  simp only [Step.staysWritable, firstArgument, List.headD_cons, hinput, Bool.and_eq_true,
    List.all_eq_true] at hrun
  obtain ⟨hcount, hrun⟩ := hrun
  have hitems := Fields.working_isWritable mode (fields.map (·.1)) hv hinput
  have hfields : ∀ e ∈ Fields.working mode ((Step.fieldPrograms w fields).map (·.1)) input,
      e.1.isWritable = true ∧ ∀ p, Fields.programFor? (Step.fieldPrograms w fields) e.1 = some p →
        Contained true (p [e.2]).outcome := by
    intro e he
    rw [Step.fieldPrograms_keys] at he
    have hstep := hrun e he
    exact ⟨hstep.1, fun p hp =>
      Step.field_contained (hitems e he) (Step.fieldsContained hw fields) hf hstep.2 hp⟩
  have hentries := Fields.entries_stayWritable hv hinput hfields
  rw [Step.fieldPrograms_keys] at hentries
  refine ⟨?_, fun e he => ⟨(hrun e he).1, hitems e he⟩⟩
  simp only [Step.program, Program.fields, firstArgument, List.headD_cons, hinput,
    Step.fieldPrograms_keys]
  refine Composite.collect_eq (Composite.outline message "struct") rfl
    (Composite.outline_isTyped hm _)
    (Composite.outline_areWritable _ _) ?_ fun e he => (hentries e he).isWritable
  exact Value.isWritable_int_of_le (List.length_filterMap_le _ _) hcount

end Attest
