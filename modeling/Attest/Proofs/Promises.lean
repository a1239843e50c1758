import Attest.Proofs.Accounting
import Attest.Proofs.Containment

/-!
# Promises of steps

The promises that user functions hand out during a run of a step are all accounted for, on any
writable run in which no function is cancelled as it is called. The step promises its answer just
when some function has promised its own, and what it promises is worked on to the end or dropped as
a whole.

* `Call.Tidy`: what is kept from step to step.
* `Step.isTidy`: all steps keep it.
-/

namespace Attest

/-- No user function that answers at once is cancelled. -/
def World.NeverCancelsAtOnce (w : World) : Prop :=
  ∀ f args, (w.reply f args).pauses = none → (w.reply f args).outcome ≠ .error .cancelled

theorem World.NeverCancels.atOnce {w : World} (hw : w.NeverCancels) : w.NeverCancelsAtOnce :=
  fun f args _ => hw f args

/-! ## Trouble -/

/-- All trouble with an item that can be written becomes a finding, but for a cancellation. -/
theorem Finding.ofRaised_ok {item : Value} (hi : item.isWritable = true) {r : Raised}
    (hr : r ≠ .cancelled) : ∃ f, Finding.ofRaised item r = .ok (.rejected f) := by
  unfold ofRaised
  rw [Raised.promote_eq hr hi (Value.isWritable_text "struct")]
  exact ⟨_, rfl⟩

/-- What a kind makes of a value is what it accepts of it. -/
theorem Kind.coerce_eq_ok {kind : Kind} {message v u : Value} (h : kind.coerce message v = .ok u) :
    kind.accepts? v = .ok (some u) := by
  unfold coerce at h
  split at h
  · cases h
    assumption
  · cases h
  · cases h

/-! ## Calls -/

theorem Call.ofExcept_uncancelled {x : Except Raised Value} (hx : x ≠ .error .cancelled) :
    (Call.ofExcept x).answer ≠ .raised .cancelled := by
  cases x with
  | ok v => simp [ofExcept, returned]
  | error r => simpa [ofExcept, raised] using hx

/-- A call with its promises accounted for, that is not cancelled at once, and of which the answer
can be written. -/
structure Call.Tidy (c : Call Value) : Prop where
  accounted : c.Accounted
  uncancelled : c.answer ≠ .raised .cancelled
  isWritable : ∀ v, c.outcome = .ok v → v.isWritable = true

namespace Call.Tidy

variable {c : Call Value}

theorem returned {v : Value} (hv : v.isWritable = true) : (Call.returned v).Tidy where
  accounted := .returned v
  uncancelled h := by cases h
  isWritable u hu := by
    cases hu
    exact hv

theorem raised {r : Raised} (hr : r ≠ .cancelled) : (Call.raised r : Call Value).Tidy where
  accounted := .raised r
  uncancelled h := by
    cases h
    exact hr rfl
  isWritable u hu := by cases hu

theorem ofExcept {x : Except Raised Value} (hx : x ≠ .error .cancelled)
    (hv : ∀ v, x = .ok v → v.isWritable = true) : (Call.ofExcept x).Tidy where
  accounted := .ofExcept x
  uncancelled := ofExcept_uncancelled hx
  isWritable v h := by
    rw [outcome_ofExcept] at h
    exact hv v h

theorem next {f : Value → Call Value} (h : c.Tidy)
    (hf : ∀ v, c.outcome = .ok v → v.isWritable = true → (f v).Tidy) : (c.next f).Tidy where
  accounted := h.accounted.next fun v hv => (hf v hv (h.isWritable v hv)).accounted
  uncancelled := by
    have hc := h.uncancelled
    unfold Call.next
    cases ha : c.answer with
    | returned v =>
      have hv : c.outcome = .ok v := by simp [outcome, ha]
      exact (hf v hv (h.isWritable v hv)).uncancelled
    | raised r =>
      rw [ha] at hc
      exact hc
    | promised handles p => simp
  isWritable u hu := by
    rw [outcome_next] at hu
    obtain ⟨v, hv, hu⟩ := Attempt.bind_eq_ok.1 hu
    exact (hf v hv (h.isWritable v hv)).isWritable u hu

/-- A cancellation may come later, and then it stays one. -/
theorem recover {f : Raised → Call Value} (h : c.Tidy)
    (hcancel : f .cancelled = Call.raised .cancelled)
    (hf : ∀ r, c.outcome = .error r → r ≠ .cancelled → (f r).Tidy) : (c.recover f).Tidy where
  accounted := by
    refine h.accounted.recover fun r hr => ?_
    by_cases hrc : r = .cancelled
    · rw [hrc, hcancel]
      exact .raised .cancelled
    · exact (hf r hr hrc).accounted
  uncancelled := by
    have hc := h.uncancelled
    unfold Call.recover
    cases ha : c.answer with
    | returned v => simp
    | raised r =>
      rw [ha] at hc
      have hr : c.outcome = .error r := by simp [outcome, ha]
      exact (hf r hr fun hrc => hc (congrArg _ hrc)).uncancelled
    | promised handles p => simp
  isWritable u hu := by
    rw [outcome_recover] at hu
    cases ho : c.outcome with
    | ok v =>
      rw [ho] at hu
      cases hu
      exact h.isWritable u ho
    | error r =>
      rw [ho] at hu
      by_cases hrc : r = .cancelled
      · simp [Except.tryCatch, hrc, hcancel] at hu
      · exact (hf r ho hrc).isWritable u hu

theorem mapRaised {f : Raised → Raised} (h : c.Tidy) (hcancel : f .cancelled = .cancelled)
    (hf : ∀ r, r ≠ .cancelled → f r ≠ .cancelled) : (c.mapRaised f).Tidy :=
  h.recover (congrArg Call.raised hcancel) fun r _ hr => raised (hf r hr)

end Call.Tidy

theorem World.call_tidy {w : World} (hw : w.NeverCancelsAtOnce) {f : FunctionId} {args : List Value}
    (h : isWritableOutcome (w.reply f args).outcome = true) : (w.call f args).Tidy where
  accounted := w.call_accounted f args
  uncancelled := by
    have hnot := hw f args
    unfold World.call
    simp only
    cases hp : (w.reply f args).pauses with
    | none => exact Call.ofExcept_uncancelled (hnot hp)
    | some count => simp
  isWritable v hv := by
    have hv : (w.reply f args).outcome = .ok v := by
      rw [World.call_outcome] at hv
      split at hv
      · exact Attempt.mapError_eq_ok.1 hv
      · exact hv
    rw [hv] at h
    exact h

/-! ## Combinators -/

namespace Program

variable {p q : Program} {args : List Value}

theorem pure_tidy {f : Value → Except Fault Value}
    (h : ∀ v, f (firstArgument args) = .ok v → v.isWritable = true) :
    ((Program.pure f) args).Tidy := by
  unfold Program.pure
  cases hx : f (firstArgument args) with
  | ok v => exact .returned (h v hx)
  | error e => exact .raised (by simp)

theorem guarded_tidy (comparison : Value) (h : (p args).Tidy) :
    ((p.guarded comparison) args).Tidy := by
  rw [guarded_eq]
  exact h.mapRaised rfl fun _ hr => Raised.promote_ne_cancelled hr _ comparison

theorem satisfying_tidy (message expected : Value) (comparison : String)
    (hargs : args.all Value.isWritable = true) (h : (p [firstArgument args]).Tidy) :
    ((p.satisfying message expected comparison) args).Tidy := by
  rw [satisfying_eq]
  refine (guarded_tidy (.text comparison) h).next fun verdict _ _ => ?_
  split
  · exact .returned (firstArgument_isWritable hargs)
  · exact .raised (Raised.fail_ne_cancelled _)

theorem andThen_tidy (h : (p args).Tidy)
    (hq : ∀ v, (p args).outcome = .ok v → v.isWritable = true → (q [v]).Tidy) :
    ((p.andThen q) args).Tidy := by
  rw [andThen_eq]
  exact h.next fun v hv hw => guarded_tidy (.text "transform") (hq v hv hw)

theorem ifPresent_tidy (substituted : Bool) (hargs : args.all Value.isWritable = true)
    (h : (firstArgument args).isNullish = false → (p args).Tidy) :
    (p.ifPresent substituted args).Tidy := by
  rw [ifPresent_eq]
  split
  · exact .returned (firstArgument_isWritable hargs)
  · next hnull =>
    exact (h (by simpa using hnull)).mapRaised rfl fun _ hr =>
      optionalTrouble_ne_cancelled substituted _ hr

/-- A substitute that can be written, or is produced tidily. -/
def Substitute.IsTidy : Substitute → Prop
  | .none => True
  | .value v => v.isWritable = true
  | .produced p => (p []).Tidy

theorem optional_tidy {s : Substitute} (hargs : args.all Value.isWritable = true)
    (hs : (firstArgument args).isNullish = true → s.IsTidy)
    (hp : (firstArgument args).isNullish = false → (p args).Tidy)
    (hq : (firstArgument args).isNullish = true → ∀ v, s.outcome (firstArgument args) = .ok v →
      v.isWritable = true → v.isNullish = false → (p (v :: args.tail)).Tidy) :
    ((p.optional s) args).Tidy := by
  have hgot := firstArgument_isWritable hargs
  cases hnull : (firstArgument args).isNullish with
  | false =>
    rw [optional_present hnull]
    exact ifPresent_tidy false hargs hp
  | true =>
    have hs := hs hnull
    cases s with
    | none =>
      simp only [optional, hnull, Bool.not_true, Bool.false_eq_true, ↓reduceIte]
      exact ifPresent_tidy false (substituted_isWritable hargs hgot) (hq hnull _ rfl hgot)
    | value v =>
      simp only [optional, hnull, Bool.not_true, Bool.false_eq_true, ↓reduceIte]
      exact ifPresent_tidy true (substituted_isWritable hargs hs) (hq hnull v rfl hs)
    | produced f =>
      rw [optional_produced hnull]
      refine (hs.mapRaised rfl fun _ hr => unproduced_ne_cancelled _ hr).next fun v hv hw => ?_
      rw [Call.outcome_mapRaised] at hv
      exact ifPresent_tidy true (substituted_isWritable hargs hw)
        (hq hnull v (Attempt.mapError_eq_ok.1 hv) hw)

theorem inside_tidy (path : List Value) (h : (p args).Tidy) : ((p.inside path) args).Tidy := by
  rw [inside_eq]
  refine h.mapRaised rfl fun r hr => ?_
  cases r with
  | failure f => exact Raised.ofFailure_ne_cancelled _
  | setup | fault | cancelled => exact hr

end Program

/-! ## Composites -/

/-- An entry that is judged tidily, and of which all that is known beforehand can be written. -/
inductive Entry.Tidy : Entry → Prop
  | judged {segment item : Value} {p : Program} :
      segment.isWritable = true → item.isWritable = true →
      (p [item]).Tidy → Tidy (.judged segment item p)
  | refused {segment : Value} (f : Failure) : Tidy (.refused segment (.ok f))
  | kept {segment item : Value} : segment.isWritable = true → item.isWritable = true →
      Tidy (.kept segment item)

namespace Entry

theorem Tidy.isAccounted {e : Entry} (h : e.Tidy) : e.IsAccounted := by
  cases h with
  | judged _ _ h => exact h.accounted
  | refused | kept => trivial

/-- A tidy entry lets the judgement go on. -/
theorem Tidy.find_returned {e : Entry} (h : e.Tidy) : ∃ found, e.find.answer = .returned found := by
  cases h with
  | @judged segment item p _ hi h =>
    have hc := h.uncancelled
    simp only [find]
    cases ha : (p [item]).answer with
    | returned v => exact ⟨_, rfl⟩
    | raised r =>
      rw [ha] at hc
      obtain ⟨f, hf⟩ := Finding.ofRaised_ok hi (r := r) fun hr => hc (congrArg _ hr)
      simp only [hf]
      exact ⟨_, rfl⟩
    | promised handles q => exact ⟨_, rfl⟩
  | refused | kept => exact ⟨_, rfl⟩

theorem Tidy.settled_isWritable {e : Entry} (h : e.Tidy) {segment v : Value}
    (hs : e.settled = .ok (segment, .accepted v)) :
    segment.isWritable = true ∧ v.isWritable = true := by
  cases h with
  | @judged segment item p hseg _ h =>
    simp only [settled] at hs
    cases ho : (p [item]).judgement with
    | ok u =>
      rw [ho] at hs
      cases hs
      exact ⟨hseg, h.isWritable v (Call.judgement_eq_ok.1 ho).1⟩
    | error r =>
      rw [ho] at hs
      obtain ⟨f, hf, hs⟩ := Attempt.bind_eq_ok.1 hs
      cases hs
      unfold Finding.ofRaised at hf
      split at hf <;> cases hf
  | refused f => cases hs
  | kept hseg hi =>
    cases hs
    exact ⟨hseg, hi⟩

end Entry

theorem Entry.findAll_returned {entries : List Entry} (h : ∀ e ∈ entries, e.Tidy) :
    ∃ findings, (findAll entries).answer = .returned findings := by
  refine (Call.answer_of_not_promised (findAll_isPromised entries)).resolve_right ?_
  rintro ⟨r, hr⟩
  obtain ⟨before, e, after, -, rfl, -, he⟩ := findAll_raised hr
  obtain ⟨found, hf⟩ := (h e (List.mem_append_right _ List.mem_cons_self)).find_returned
  rw [hf] at he
  cases he

namespace Composite

theorem settleAll_eq_ok {findings fs : List (Value × Finding)} (h : settleAll findings = .ok fs) :
    settledAll findings = .ok fs := by
  unfold settleAll at h
  split at h
  · cases h
  · exact h

/-- An answer of a composite is built from what its entries are settled by. -/
theorem collect_eq_ok {c : Composite} {entries : List Entry} {v : Value}
    (hv : (c.collect entries).outcome = .ok v) :
    ∃ findings, entries.mapM Entry.settled = .ok findings ∧ failures findings = [] ∧
      v = c.build (answers findings) := by
  unfold collect at hv
  rw [Call.outcome_next, Entry.findAll_outcome] at hv
  obtain ⟨findings, hfind, hv⟩ := Attempt.bind_eq_ok.1 hv
  have hrounds : ∀ fs, settledAll findings = .ok fs → entries.mapM Entry.settled = .ok fs := by
    intro fs hfs
    rw [funext Entry.settled_eq_find, ← Attempt.mapM_of_mapM_eq_ok hfind]
    exact hfs
  split at hv
  · simp only [Call.outcome, awaiting] at hv
    cases hs : settleAll findings with
    | error r =>
      rw [hs] at hv
      cases hv
    | ok fs =>
      rw [hs] at hv
      exact ⟨fs, hrounds fs (settleAll_eq_ok hs), conclude_eq_ok hv⟩
  · next hpromise =>
    rw [Call.outcome_after, Call.outcome_ofExcept] at hv
    exact ⟨findings, hrounds _ (settledAll_of_no_promise (by simpa using hpromise)),
      conclude_eq_ok hv⟩

theorem collect_tidy {c : Composite} {entries : List Entry} (h : ∀ e ∈ entries, e.Tidy)
    (hbuild : ∀ answers, (∀ answer ∈ answers, answer.1.isWritable = true ∧
      answer.2.isWritable = true) → (c.build answers).isWritable = true) :
        (c.collect entries).Tidy := by
  obtain ⟨findings, hf⟩ := Entry.findAll_returned h
  refine ⟨c.collect_accounted (fun e he => (h e he).isAccounted) hf, ?_, fun v hv => ?_⟩
  · unfold collect Call.next
    rw [hf]
    simp only
    split
    · simp [Call.after]
    · exact Call.ofExcept_uncancelled (c.conclude_ne_cancelled findings)
  · obtain ⟨fs, hfs, -, rfl⟩ := collect_eq_ok hv
    refine hbuild _ fun answer ha => ?_
    obtain ⟨e, he, hs⟩ := Attempt.exists_of_mem_mapM hfs (mem_answers.1 ha)
    exact (h e he).settled_isWritable hs

end Composite

namespace Program

variable {args : List Value}

theorem fields_tidy {mode : Mode} {message : Value} {validators : List (Value × Program)}
    (hargs : args.all Value.isWritable = true)
    (h : ∀ input, (firstArgument args).entries? = some input →
      ∀ e ∈ Fields.working mode (validators.map (·.1)) input, e.1.isWritable = true ∧
        ∀ p, Fields.programFor? validators e.1 = some p → (p [e.2]).Tidy) :
    ((fields mode message validators) args).Tidy := by
  have hv := firstArgument_isWritable hargs
  unfold fields
  simp only
  split
  · exact .raised (Raised.fail_ne_cancelled _)
  · next input hinput =>
    refine Composite.collect_tidy (fun e he => ?_) fun _ => Fields.build_isWritable
    obtain ⟨⟨key, item⟩, hmem, heq⟩ := List.mem_filterMap.1 he
    have hk := (h input hinput _ hmem).1
    have hi : item.isWritable = true :=
      Fields.working_isWritable mode (validators.map (·.1)) hv hinput _ hmem
    rcases Fields.entry?_cases heq with ⟨p, hp, rfl⟩ | rfl | rfl
    · exact .judged hk hi ((h input hinput _ hmem).2 p hp)
    · rw [Fields.unknownKey_eq hk hi]
      exact .refused _
    · exact .kept hk hi

theorem elements_tidy {message : Value} {element : Program}
    (h : ∀ items, (firstArgument args).iterate = .ok items →
      (Value.int items.length).isWritable = true ∧ ∀ item ∈ items, item.isWritable = true ∧
        (element [item]).Tidy) :
    ((elements message element) args).Tidy := by
  unfold elements
  split
  · exact .raised (by simp)
  · next items hitems =>
    obtain ⟨hc, hall⟩ := h items hitems
    refine Composite.collect_tidy (fun e he => ?_) fun answers ha => ?_
    · obtain ⟨⟨i, item⟩, hmem, rfl⟩ := List.mem_map.1 he
      obtain ⟨hi, hitem⟩ := List.of_mem_zip hmem
      have hlt : i < items.length := List.mem_range.1 hi
      exact .judged (Value.isWritable_int_of_le (Nat.le_of_lt hlt) hc)
        (hall _ hitem).1 (hall _ hitem).2
    · refine Value.isWritable_list.2 fun v hv => ?_
      obtain ⟨answer, hanswer, rfl⟩ := List.mem_map.1 hv
      exact (ha answer hanswer).2

end Program

/-! ## The cases of steps -/

/-- Whether the promises handed out in a call are accounted for, on every writable run. -/
def Callable.IsTidy (w : World) (c : Callable) : Prop := ∀ args : List Value,
  args.all Value.isWritable = true → c.staysWritable w args = true → (c.program w args).Tidy

def Check.IsTidy (w : World) (c : Check) : Prop := ∀ args : List Value,
  args.all Value.isWritable = true → c.staysWritable w args = true → (c.program w args).Tidy

def Change.IsTidy (w : World) (c : Change) : Prop := ∀ args : List Value,
  args.all Value.isWritable = true → c.staysWritable w args = true → (c.program w args).Tidy

def Default.IsTidy (w : World) (d : Default) : Prop :=
  d.staysWritable w = true → (d.substitute w).IsTidy

/-- Whether the promises handed out in a step are accounted for, on every writable run. -/
def Step.IsTidy (w : World) (s : Step) : Prop := ∀ args : List Value,
  args.all Value.isWritable = true → s.staysWritable w args = true → (s.program w args).Tidy

section
variable {w : World}

theorem Callable.function_isTidy (hw : w.NeverCancelsAtOnce) (f : FunctionId) :
    (Callable.function f).IsTidy w := by
  intro args _ hs
  simp only [staysWritable] at hs
  simp only [program]
  exact World.call_tidy hw hs

theorem Callable.type_isTidy (t : DataType) : (Callable.type t).IsTidy w := by
  intro args _ hs
  simp only [staysWritable] at hs
  simp only [program]
  cases hx : Value.construct t args with
  | ok v =>
    rw [hx] at hs
    exact .returned hs
  | error e => exact .raised (by simp)

theorem Callable.step_isTidy {s : Step} (h : s.IsTidy w) : (Callable.step s).IsTidy w := by
  intro args hargs hs
  simp only [staysWritable] at hs
  simp only [program]
  exact h _ (called_isWritable hargs) hs

theorem Callable.nothing_isTidy (type : String) : (Callable.nothing type).IsTidy w := by
  intro args _ _
  simp only [program]
  exact .raised (by simp)

theorem Program.holds_tidy (now : Calendar.Moment) (c : Check) (args : List Value) :
    ((Program.pure fun v => do return .bool (← c.holds now v)) args).Tidy := by
  refine pure_tidy fun v hv => ?_
  obtain ⟨b, -, hb⟩ := Attempt.bind_eq_ok.1 hv
  cases hb
  rfl

theorem Check.satisfies_isTidy {f : Callable} (h : f.IsTidy w) : (Check.satisfies f).IsTidy w := by
  intro args hargs hs
  simp only [staysWritable] at hs
  simp only [program]
  exact h args hargs hs

theorem Change.apply_isTidy {f : Callable} (h : f.IsTidy w) : (Change.apply f).IsTidy w := by
  intro args hargs hs
  simp only [staysWritable] at hs
  simp only [program]
  exact h args hargs hs

theorem Default.produced_isTidy {f : Callable} (h : f.IsTidy w) :
    (Default.produced f).IsTidy w := by
  intro hs
  simp only [staysWritable] at hs
  simp only [substitute]
  exact h [] rfl hs

namespace Step

variable {s t : Step}

theorem accept_isTidy : Step.accept.IsTidy w := by
  intro args hargs _
  simp only [program]
  exact .returned (Program.firstArgument_isWritable hargs)

theorem coerce_isTidy (kind : Kind) (message : Value) : (Step.coerce kind message).IsTidy w := by
  intro args _ hs
  simp only [staysWritable] at hs
  simp only [program]
  refine .ofExcept (kind.coerce_ne_cancelled message _) fun v hv => ?_
  rw [Kind.coerce_eq_ok hv] at hs
  exact hs

theorem call_isTidy {f : Callable} (h : f.IsTidy w) : (Step.call f).IsTidy w := by
  intro args hargs hs
  simp only [staysWritable] at hs
  simp only [program]
  exact h args hargs hs

theorem guarded_isTidy (comparison : Value) (h : s.IsTidy w) :
    (Step.guarded s comparison).IsTidy w := by
  intro args hargs hs
  simp only [staysWritable, Bool.and_eq_true] at hs
  simp only [program]
  exact Program.guarded_tidy comparison (h args hargs hs.2)

theorem change_isTidy {c : Change} (h : c.IsTidy w) : (Step.change c).IsTidy w := by
  intro args hargs hs
  simp only [staysWritable] at hs
  simp only [program]
  exact h args hargs hs

theorem check_isTidy {c : Check} (message expected : Value) (comparison : String) (h : c.IsTidy w) :
    (Step.check c message expected comparison).IsTidy w := by
  intro args hargs hs
  simp only [staysWritable, Bool.and_eq_true] at hs
  simp only [program]
  have hone : [firstArgument args].all Value.isWritable = true := by
    simpa using Program.firstArgument_isWritable hargs
  exact Program.satisfying_tidy message expected comparison hargs (h _ hone hs.2)

theorem andThen_isTidy (hs : s.IsTidy w) (ht : t.IsTidy w) : (Step.andThen s t).IsTidy w := by
  intro args hargs hrun
  simp only [staysWritable, Bool.and_eq_true] at hrun
  simp only [program]
  refine Program.andThen_tidy (hs args hargs hrun.1) fun v hv hvw => ?_
  have hnext := hrun.2
  rw [hv] at hnext
  exact ht [v] (by simpa using hvw) hnext

theorem optional_isTidy {default : Default} (h : s.IsTidy w) (hdefault : default.IsTidy w) :
    (Step.optional s default).IsTidy w := by
  intro args hargs hs
  simp only [staysWritable] at hs
  simp only [program]
  refine Program.optional_tidy hargs (fun hnull => ?_) (fun hnull => ?_)
    fun hnull v hv hvw hvnull => ?_
  · simp only [hnull, Bool.not_true, Bool.false_eq_true, ↓reduceIte, Bool.and_eq_true] at hs
    exact hdefault hs.1
  · simp only [hnull, Bool.not_false, ↓reduceIte] at hs
    exact h args hargs hs
  · simp only [hnull, Bool.not_true, Bool.false_eq_true, ↓reduceIte, Bool.and_eq_true, hv, hvnull,
      Bool.false_or] at hs
    exact h _ (Program.substituted_isWritable hargs hvw) hs.2

theorem choice_tidy {message v : Value} (hv : v.isWritable = true) :
    ∀ {alternatives : List Step}, (∀ s ∈ alternatives, s.IsTidy w) →
      choiceStaysWritable w v alternatives = true → ∀ failures : List Failure,
      (Program.firstOf message v failures (programs w alternatives)).Tidy
  | [], _, _, failures => by
    simp only [programs, Program.firstOf]
    exact .raised (Raised.ofFailure_ne_cancelled _)
  | s :: rest, h, hs, failures => by
    obtain ⟨hfirst, hlater⟩ := List.forall_mem_cons.1 h
    simp only [choiceStaysWritable, Bool.and_eq_true] at hs
    rw [programs, Program.firstOf_cons]
    refine (hfirst [v] (by simpa using hv) hs.1).recover rfl fun r ho hr => ?_
    have hrest := hs.2
    rw [ho] at hrest
    rw [Raised.promote_eq hr hv (Value.isWritable_text "union")]
    exact choice_tidy hv hlater hrest _

theorem union_isTidy {alternatives : List Step} (message : Value)
    (h : ∀ s ∈ alternatives, s.IsTidy w) :
    (Step.union alternatives message).IsTidy w := by
  intro args hargs hs
  simp only [staysWritable, Bool.and_eq_true] at hs
  simp only [program]
  exact choice_tidy (Program.firstArgument_isWritable hargs) h hs.1 []

/-- A record judges a key by the first of its fields with that key. -/
theorem field_tidy {key item : Value} {p : Program} (hitem : item.isWritable = true) :
    ∀ {entries : List (Value × Step)}, (∀ e ∈ entries, e.2.IsTidy w) →
      fieldStaysWritable w key item entries = true →
      Fields.programFor? (fieldPrograms w entries) key = some p → (p [item]).Tidy
  | [], _, _, hp => by
    simp only [fieldPrograms] at hp
    cases hp
  | (k, s) :: rest, h, hs, hp => by
    obtain ⟨hfirst, hlater⟩ := List.forall_mem_cons.1 h
    simp only [fieldStaysWritable] at hs
    simp only [fieldPrograms, Fields.programFor?, List.find?_cons] at hp
    by_cases hk : k.same key = true
    · simp only [hk, Option.map_some, Option.some.injEq] at hp
      simp only [hk, ↓reduceIte] at hs
      rw [← hp]
      exact hfirst [item] (by simpa using hitem) hs
    · simp only [hk] at hp
      simp only [hk, Bool.false_eq_true, ↓reduceIte] at hs
      exact field_tidy hitem hlater hs hp

theorem fields_isTidy {entries : List (Value × Step)} (mode : Mode) (message : Value)
    (h : ∀ e ∈ entries, e.2.IsTidy w) : (Step.fields mode message entries).IsTidy w := by
  intro args hargs hs
  simp only [staysWritable] at hs
  simp only [program]
  refine Program.fields_tidy hargs fun input hinput e he => ?_
  have hv := Program.firstArgument_isWritable hargs
  simp only [fieldPrograms_keys] at he
  have hitem := Fields.working_isWritable mode (entries.map (·.1)) hv hinput e he
  simp only [hinput, Bool.and_eq_true, List.all_eq_true] at hs
  have hstep := hs.2 e he
  exact ⟨hstep.1, fun p hp => field_tidy hitem h hstep.2 hp⟩

theorem elements_isTidy {element : Step} (message : Value) (h : element.IsTidy w) :
    (Step.elements message element).IsTidy w := by
  intro args _ hs
  simp only [staysWritable] at hs
  simp only [program]
  refine Program.elements_tidy fun items hitems => ?_
  simp only [hitems, Bool.and_eq_true, List.all_eq_true] at hs
  refine ⟨hs.1, fun item hitem => ⟨(hs.2 item hitem).1, ?_⟩⟩
  exact h [item] (by simpa using (hs.2 item hitem).1) (hs.2 item hitem).2

theorem inside_isTidy (path : List Value) (h : s.IsTidy w) : (Step.inside path s).IsTidy w := by
  intro args hargs hs
  simp only [staysWritable, Bool.and_eq_true] at hs
  simp only [program]
  exact Program.inside_tidy path (h args hargs hs.2)

end Step

/-! ## All steps -/

mutual

theorem Callable.isTidy (hw : w.NeverCancelsAtOnce) : ∀ c : Callable, c.IsTidy w
  | .function f => Callable.function_isTidy hw f
  | .type t => Callable.type_isTidy t
  | .step s => Callable.step_isTidy (s.isTidy hw)
  | .nothing type => Callable.nothing_isTidy type

theorem Check.isTidy (hw : w.NeverCancelsAtOnce) : ∀ c : Check, c.IsTidy w
  | .satisfies f => Check.satisfies_isTidy (f.isTidy hw)
  | .equals _ | .differs _ | .among _ | .notAmong _ | .compares _ _ | .between _ _ | .lengthIs _
  | .lengthCompares _ _ | .notEmpty | .hasMatch _ | .startsWith _ | .endsWith _ | .contains _
  | .integral | .finite | .multipleOf _ | .positive | .negative | .past | .future | .distinct
  | .hasKeys _ | .impossible _ => fun args _ _ => by
    simp only [Check.program]
    exact Program.holds_tidy _ _ args

theorem Change.isTidy (hw : w.NeverCancelsAtOnce) : ∀ c : Change, c.IsTidy w
  | .apply f => Change.apply_isTidy (f.isTidy hw)
  | .trim | .lower | .upper | .power _ => fun args _ hs => by
    simp only [Change.staysWritable] at hs
    simp only [Change.program]
    refine Program.pure_tidy fun v hv => ?_
    rw [hv] at hs
    exact hs

theorem Default.isTidy (hw : w.NeverCancelsAtOnce) : ∀ d : Default, d.IsTidy w
  | .none => fun _ => trivial
  | .value v => fun hs => by
    simp only [Default.staysWritable] at hs
    simp only [Default.substitute]
    exact hs
  | .produced f => Default.produced_isTidy (f.isTidy hw)

/-- Where nothing is cancelled at once, the promises handed out are accounted for after each
step. -/
theorem Step.isTidy (hw : w.NeverCancelsAtOnce) : ∀ s : Step, s.IsTidy w
  | .accept => Step.accept_isTidy
  | .coerce kind message => Step.coerce_isTidy kind message
  | .call f => Step.call_isTidy (f.isTidy hw)
  | .guarded s comparison => Step.guarded_isTidy comparison (s.isTidy hw)
  | .change c => Step.change_isTidy (c.isTidy hw)
  | .check c message expected comparison =>
      Step.check_isTidy message expected comparison (c.isTidy hw)
  | .andThen s t => Step.andThen_isTidy (s.isTidy hw) (t.isTidy hw)
  | .optional s default => Step.optional_isTidy (s.isTidy hw) (default.isTidy hw)
  | .union alternatives message => Step.union_isTidy message (Step.areTidy hw alternatives)
  | .fields mode message entries => Step.fields_isTidy mode message (Step.fieldsAreTidy hw entries)
  | .elements message element => Step.elements_isTidy message (element.isTidy hw)
  | .inside path s => Step.inside_isTidy path (s.isTidy hw)

theorem Step.areTidy (hw : w.NeverCancelsAtOnce) : ∀ alternatives : List Step,
    ∀ s ∈ alternatives, s.IsTidy w
  | [] => nofun
  | s :: rest => List.forall_mem_cons.2 ⟨s.isTidy hw, Step.areTidy hw rest⟩

theorem Step.fieldsAreTidy (hw : w.NeverCancelsAtOnce) : ∀ entries : List (Value × Step),
    ∀ e ∈ entries, e.2.IsTidy w
  | [] => nofun
  | (_, s) :: rest => List.forall_mem_cons.2 ⟨s.isTidy hw, Step.fieldsAreTidy hw rest⟩

end

end

end Attest
