import Attest.Proofs.Congruence
import Attest.Proofs.Wording
import Attest.Routine

/-!
# Cancellations

What is raised by user functions comes through the combinators as trouble of some kind, but a
cancellation comes only from a cancellation. What a user function raises later is what it would
raise at once, unless it is the end of an iteration.

* `World.call_outcome`: what comes of a call of a user function.
* `Step.program_isCalm`: where no user function is cancelled, no step is.
-/

namespace Attest

namespace World

/-- No user function is cancelled. -/
def NeverCancels (w : World) : Prop := ∀ f args, (w.reply f args).outcome ≠ .error .cancelled

/-- No user function raises the end of an iteration. -/
def IsSteady (w : World) : Prop := ∀ f args r, (w.reply f args).outcome = .error r → r.IsSteady

/-- What comes of a call: what the function answers or raises, or what becomes of that in deferred
work. -/
theorem call_outcome (w : World) (f : FunctionId) (args : List Value) :
    (w.call f args).outcome =
      if (w.reply f args).pauses.isSome then (w.reply f args).outcome.mapError Raised.inWork
      else (w.reply f args).outcome := by
  unfold call
  simp only
  cases (w.reply f args).pauses with
  | none => simp
  | some count => rfl

end World

/-! ## Routines -/

theorem Job.onNumber_ne_cancelled {α : Type} (f : Value → Except Fault α) (v : Value) :
    Job.onNumber f v ≠ .error .cancelled := by
  unfold Job.onNumber
  split
  · cases f v <;> simp [Except.mapError]
  · simp [Job.unfit]

/-- A routine is cancelled only by raising just that. -/
theorem Job.outcome_ne_cancelled {job : Job} (h : job ≠ .raise .cancelled) (args : List Value) :
    job.outcome args ≠ .error .cancelled := by
  intro hc
  cases job with
  | identity | constant _ | arguments | isMissing => cases hc
  | increment | double | inverse =>
    simp only [Job.outcome] at hc
    exact Job.onNumber_ne_cancelled _ _ hc
  | isEven =>
    rcases Attempt.bind_eq_error.1 hc with hc | ⟨_, _, hc⟩
    · exact Job.onNumber_ne_cancelled _ _ hc
    · cases hc
  | exceeds bound =>
    rcases Attempt.bind_eq_error.1 hc with hc | ⟨_, _, hc⟩
    · exact Job.onNumber_ne_cancelled _ _ hc
    · cases hc
  | upper =>
    simp only [Job.outcome] at hc
    split at hc <;> cases hc
  | toInt =>
    simp only [Job.outcome] at hc
    split at hc
    · rcases Attempt.bind_eq_error.1 hc with hc | ⟨_, _, hc⟩
      · cases hv : (firstArgument args).toInt <;> rw [hv] at hc <;> cases hc
      · cases hc
    · cases hc
  | lookup key =>
    simp only [Job.outcome, Job.valueAt] at hc
    split at hc
    · cases hc
    · split at hc
      · cases hc
      · cases hc
      · split at hc <;> cases hc
  | raise r =>
    cases hc
    exact h rfl
  | fail template named =>
    simp only [Job.outcome] at hc
    split at hc
    · exact Raised.fail_ne_cancelled _ (by simpa using hc)
    · cases hc

theorem World.ofRoutines_neverCancels {routines : List Routine} {now : Calendar.Moment}
    (h : ∀ r ∈ routines, r.job ≠ .raise .cancelled) :
    (World.ofRoutines routines now).NeverCancels := by
  intro f args
  refine Job.outcome_ne_cancelled ?_ args
  simp only [List.getD_eq_getElem?_getD]
  cases hr : routines[f.index]? with
  | none => simp
  | some r => exact h r (List.mem_of_getElem? hr)

/-- A call that is not cancelled. -/
def Call.IsCalm {α : Type} (c : Call α) : Prop := c.outcome ≠ .error .cancelled

/-- A program that is never cancelled. -/
def Program.IsCalm (p : Program) : Prop := ∀ args, (p args).IsCalm

namespace Call

variable {α β : Type} {c : Call α}

theorem isCalm_raised {r : Raised} (hr : r ≠ .cancelled) : (raised r : Call α).IsCalm :=
  fun h => hr (Except.error.inj h)

theorem IsCalm.next {f : α → Call β} (h : c.IsCalm) (hf : ∀ a, (f a).IsCalm) :
    (c.next f).IsCalm := by
  unfold IsCalm at h ⊢
  rw [outcome_next]
  cases hx : c.outcome with
  | ok a => exact hf a
  | error r => exact fun hr => h (hx.trans (congrArg Except.error (Except.error.inj hr)))

theorem IsCalm.recover {f : Raised → Call α} (h : c.IsCalm)
    (hf : ∀ r, r ≠ .cancelled → (f r).IsCalm) :
    (c.recover f).IsCalm := by
  unfold IsCalm at h ⊢
  rw [outcome_recover]
  cases hx : c.outcome with
  | ok a => simp [Except.tryCatch]
  | error r => exact hf r fun hr => h (by rw [hx, hr])

theorem IsCalm.mapRaised {f : Raised → Raised} (h : c.IsCalm)
    (hf : ∀ r, r ≠ .cancelled → f r ≠ .cancelled) : (c.mapRaised f).IsCalm :=
  h.recover fun r hr => isCalm_raised (hf r hr)

end Call

theorem Raised.inWork_eq_cancelled {r : Raised} (h : r.inWork = .cancelled) : r = .cancelled := by
  unfold inWork at h
  split at h
  · split at h <;> cases h
  · exact h

/-- Trouble in an entry becomes a finding, unless what is found cannot be written. -/
theorem Finding.ofRaised_error {item : Value} {r r' : Raised} (hr : r ≠ .cancelled)
    (h : Finding.ofRaised item r = .error r') :
    r' ≠ .cancelled ∧ (item.isJoined = true → r' = .fault .tooManyDigits) := by
  unfold ofRaised at h
  rcases Raised.promote_cases hr item (.text "struct") with ⟨f, hf⟩ | ⟨e, he, -, hjoined⟩
  · rw [hf] at h
    cases h
  · rw [he] at h
    cases h
    exact ⟨nofun, fun hitem => by rw [hjoined hitem rfl]⟩

namespace Entry

theorem judgement_ne_cancelled {c : Call Value} (h : c.IsCalm) {r : Raised}
    (hr : c.judgement = .error r) : r ≠ .cancelled := by
  rcases Call.judgement_eq_error.1 hr with hr | ⟨-, v, -, hv⟩
  · rintro rfl
    exact h hr
  · obtain ⟨name, text, rfl⟩ := Value.trouble?_eq_some hv
    nofun

theorem judged_isCalm {segment item : Value} {p : Program} (h : (p [item]).IsCalm) :
    (judged segment item p).IsCalm := by
  intro hc
  simp only [settled] at hc
  split at hc
  · cases hc
  · next r hr =>
    rcases Attempt.bind_eq_error.1 hc with hc | ⟨_, _, hc⟩
    · exact (Finding.ofRaised_error (judgement_ne_cancelled h hr) hc).1 rfl
    · cases hc

theorem refused_isCalm (segment : Value) (x : Except Fault Failure) :
    (refused segment x).IsCalm := by
  intro hc
  cases x <;> cases hc

theorem kept_isCalm (segment item : Value) : (kept segment item).IsCalm := nofun

end Entry

theorem Composite.conclude_ne_cancelled (c : Composite) (findings : List (Value × Finding)) :
    (c.conclude findings).2 ≠ .error .cancelled := by
  unfold conclude
  split
  · simp
  · split <;> simp

theorem Composite.collect_isCalm {c : Composite} {entries : List Entry}
    (h : ∀ e ∈ entries, e.IsCalm) : (c.collect entries).IsCalm := by
  intro hc
  rw [collect_outcome h] at hc
  rcases Attempt.bind_eq_error.1 hc with hc | ⟨_, -, hc⟩
  · obtain ⟨e, he, hfind⟩ := Attempt.exists_of_mapM_error hc
    exact h e he (by rw [e.settled_eq_find, hfind, Attempt.error_bind])
  · rcases Attempt.bind_eq_error.1 hc with hc | ⟨findings, -, hc⟩
    · obtain ⟨e, he, hsettled⟩ := Attempt.exists_of_mapM_error hc
      exact h e he hsettled
    · exact c.conclude_ne_cancelled findings hc

/-- The programs of the fields are never cancelled. -/
def Fields.AreCalm (validators : List (Value × Program)) : Prop := ∀ e ∈ validators, e.2.IsCalm

theorem Fields.programFor?_isCalm {validators : List (Value × Program)} (h : AreCalm validators)
    {key : Value} {p : Program} (hp : programFor? validators key = some p) : p.IsCalm := by
  obtain ⟨e, he, rfl⟩ := Option.map_eq_some_iff.1 hp
  exact h e (List.mem_of_find?_eq_some he)

theorem Fields.entries_areCalm {mode : Mode} {validators : List (Value × Program)}
    (h : AreCalm validators) (working : List (Value × Value)) :
    ∀ e ∈ working.filterMap (fun (key, item) => entry? mode validators key item), e.IsCalm := by
  intro e he
  obtain ⟨⟨key, item⟩, -, he⟩ := List.mem_filterMap.1 he
  unfold entry? at he
  simp only at he
  split at he
  · next p hp =>
    cases he
    exact Entry.judged_isCalm (programFor?_isCalm h hp [item])
  · cases mode with
    | strict =>
      cases he
      exact Entry.refused_isCalm key _
    | all =>
      cases he
      exact Entry.kept_isCalm key item
    | defined | given => cases he

namespace Program

variable {p q : Program} {args : List Value}

theorem items_areCalm {element : Program} (h : element.IsCalm) (items : List (Nat × Value)) :
    ∀ e ∈ items.map fun e => Entry.judged (.int e.1) e.2 element, e.IsCalm := by
  intro e he
  obtain ⟨⟨i, item⟩, -, rfl⟩ := List.mem_map.1 he
  exact Entry.judged_isCalm (h [item])

theorem IsImmediate.isCalm (h : p.IsImmediate) : p.IsCalm := fun args hc => by
  obtain ⟨x, hx, hp⟩ := h args
  rw [hp, Call.outcome_ofExcept] at hc
  exact hx hc

theorem call_isCalm {w : World} (hw : w.NeverCancels) (f : FunctionId) : IsCalm (w.call f) := by
  intro args hc
  rw [World.call_outcome] at hc
  split at hc
  · cases hx : (w.reply f args).outcome with
    | ok v =>
      rw [hx] at hc
      cases hc
    | error r =>
      rw [hx] at hc
      have hr := Raised.inWork_eq_cancelled (Except.error.inj hc)
      exact hw f args (by rw [hx, hr])
  · exact hw f args hc

theorem guarded_isCalm (comparison : Value) (h : p.IsCalm) : (p.guarded comparison).IsCalm := by
  intro args
  rw [guarded_eq]
  exact (h args).mapRaised fun _ hr =>
    Raised.promote_ne_cancelled hr (firstArgument args) comparison

theorem refuted_ne_cancelled (message expected : Value) (comparison : String) (v : Value) :
    refuted message expected comparison v ≠ .cancelled := by
  unfold refuted
  exact Raised.fail_ne_cancelled _

theorem satisfying_isCalm (message expected : Value) (comparison : String) (h : p.IsCalm) :
    (p.satisfying message expected comparison).IsCalm := by
  intro args
  rw [satisfying_eq]
  refine (guarded_isCalm (.text comparison) h _).next fun verdict => ?_
  split
  · exact nofun
  · exact Call.isCalm_raised (refuted_ne_cancelled message expected comparison _)

theorem andThen_isCalm (h : p.IsCalm) (h' : q.IsCalm) : (p.andThen q).IsCalm := by
  intro args
  rw [andThen_eq]
  exact (h args).next fun v => guarded_isCalm (.text "transform") h' [v]

theorem optionalTrouble_ne_cancelled (substituted : Bool) (v : Value) {r : Raised}
    (hr : r ≠ .cancelled) : optionalTrouble substituted v r ≠ .cancelled := by
  unfold optionalTrouble
  split
  · exact absurd rfl hr
  · split
    · exact Raised.ofFailure_ne_cancelled _
    · simp
  · exact Raised.fail_ne_cancelled _

theorem unproduced_ne_cancelled (got : Value) {r : Raised} (hr : r ≠ .cancelled) :
    unproduced got r ≠ .cancelled := by
  unfold unproduced
  split
  · exact absurd rfl hr
  · exact Raised.fail_ne_cancelled _

theorem ifPresent_isCalm (substituted : Bool) (h : p.IsCalm) (args : List Value) :
    (p.ifPresent substituted args).IsCalm := by
  rw [ifPresent_eq]
  split
  · exact nofun
  · exact (h args).mapRaised fun _ hr => optionalTrouble_ne_cancelled substituted _ hr

/-- What takes the place of a missing argument is not cancelled. -/
def Substitute.IsCalm : Substitute → Prop
  | .produced f => f.IsCalm
  | _ => True

theorem optional_isCalm {s : Substitute} (h : p.IsCalm) (hs : s.IsCalm) :
    (p.optional s).IsCalm := by
  intro args
  cases hnull : (firstArgument args).isNullish with
  | false =>
    rw [optional_present hnull]
    exact ifPresent_isCalm false h args
  | true =>
    cases s with
    | none =>
      simp only [optional, hnull, Bool.not_true, Bool.false_eq_true, ↓reduceIte]
      exact ifPresent_isCalm false h _
    | value v =>
      simp only [optional, hnull, Bool.not_true, Bool.false_eq_true, ↓reduceIte]
      exact ifPresent_isCalm true h _
    | produced f =>
      rw [optional_produced hnull]
      exact ((hs []).mapRaised fun _ hr => unproduced_ne_cancelled _ hr).next fun v =>
        ifPresent_isCalm true h _

theorem unmatched_ne_cancelled (message v : Value) (failures : List Failure) :
    unmatched message v failures ≠ .cancelled := by
  unfold unmatched
  exact Raised.ofFailure_ne_cancelled _

theorem firstOf_isCalm (message v : Value) {ps : List Program} (h : ∀ p ∈ ps, p.IsCalm) :
    ∀ failures, (firstOf message v failures ps).IsCalm := by
  induction ps with
  | nil =>
    intro failures
    exact Call.isCalm_raised (unmatched_ne_cancelled message v failures)
  | cons p rest ih =>
    intro failures
    rw [firstOf_cons]
    refine (h p List.mem_cons_self [v]).recover fun r hr => ?_
    rcases Raised.promote_cases hr v (.text "union") with ⟨f, hf⟩ | ⟨e, he, -⟩
    · rw [hf]
      exact ih (fun q hq => h q (List.mem_cons_of_mem _ hq)) _
    · rw [he]
      exact Call.isCalm_raised nofun

theorem inside_isCalm (path : List Value) (h : p.IsCalm) : (p.inside path).IsCalm := by
  intro args
  rw [inside_eq]
  refine (h args).mapRaised fun r hr => ?_
  cases r with
  | failure f => exact Raised.ofFailure_ne_cancelled _
  | _ => exact hr

theorem fields_isCalm {ps : List (Value × Program)} (mode : Mode) (message : Value)
    (h : Fields.AreCalm ps) : (fields mode message ps).IsCalm := by
  intro args
  unfold fields
  simp only
  cases (firstArgument args).entries? with
  | none =>
    refine Call.isCalm_raised ?_
    unfold Fields.notAMap
    exact Raised.fail_ne_cancelled _
  | some input => exact Composite.collect_isCalm (Fields.entries_areCalm h _)

theorem elements_isCalm (message : Value) (h : p.IsCalm) : (elements message p).IsCalm := by
  intro args
  unfold elements
  cases (firstArgument args).iterate with
  | error e => exact Call.isCalm_raised nofun
  | ok items => exact Composite.collect_isCalm (items_areCalm h _)

end Program

theorem forall_right_of_forall₂ {α β : Type} {Q : β → Prop} {xs : List α} {ys : List β}
    (h : List.Forall₂ (fun _ y => Q y) xs ys) : ∀ y ∈ ys, Q y := by
  induction h with
  | nil => exact nofun
  | cons h _ ih => exact List.forall_mem_cons.2 ⟨h, ih⟩

/-- No combinator is cancelled where its parts are not. -/
theorem isCalm_congruence {w : World} (hw : w.NeverCancels) :
    Congruence w w (fun _ => True) fun _ q => q.IsCalm where
  sameTime := rfl
  isKept := Value.isKept_true
  function := Program.call_isCalm hw
  immediate h _ := h.isCalm
  called h := fun _ => h _
  guarded := Program.guarded_isCalm
  satisfying := Program.satisfying_isCalm
  andThen := Program.andThen_isCalm
  optional h hs := Program.optional_isCalm h <| by
    cases hs with
    | produced hf => exact hf
    | none | value => trivial
  union message h := fun _ => Program.firstOf_isCalm _ _ (forall_right_of_forall₂ h) []
  fields mode message h := Program.fields_isCalm mode message
    (forall_right_of_forall₂ (h.imp fun _ _ he => he.2))
  elements := Program.elements_isCalm
  inside := Program.inside_isCalm

/-- Where no user function is cancelled, no step is. -/
theorem Step.program_isCalm {w : World} (hw : w.NeverCancels) (s : Step) : (s.program w).IsCalm :=
  (isCalm_congruence hw).step s fun _ _ => trivial

end Attest
