import Attest.Proofs.Attempt
import Attest.Proofs.Bodies

/-!
# Outcomes

What comes of a call once its answer is there, whether it was promised or not.

* `outcome_next`, `outcome_recover`: going on with an answer, or with what was raised, is the same
  now and later.
* `Call.judgement`: what a composite makes of an outcome. It is the outcome itself, but for the
  object of an exception that is answered later.
* `collect_outcome`, `collect_outcome_of_alike`: the outcome of a composite is the one of its
  entries in their order, each settled on its own. No entry that answers later is lost, doubled or
  put elsewhere.
-/

namespace Attest

/-- The object of an exception counts as trouble of a user function. -/
theorem Value.trouble?_eq_some {v : Value} {r : Raised} (h : v.trouble? = some r) :
    ∃ name text, r = .fault (.raised name text) := by
  unfold trouble? at h
  split at h
  · exact ⟨_, _, (Option.some.inj h).symm⟩
  · cases h

namespace Call

variable {α β : Type}

/-- What comes of a call once it is there. -/
def outcome (c : Call α) : Except Raised α :=
  match c.answer with
  | .returned a => .ok a
  | .raised r => .error r
  | .promised _ p => p.outcome

/-- The fault that an outcome is, if it is one. -/
def fault? (x : Except Raised α) : Option Fault :=
  match x with
  | .error (.fault e) => some e
  | _ => none

theorem fault?_eq_some {x : Except Raised α} {e : Fault} :
    fault? x = some e ↔ x = .error (.fault e) := by
  unfold fault?
  split
  · simp
  · next hne =>
    refine ⟨fun h => ?_, fun h => absurd h (hne e)⟩
    cases h

theorem settle_snd (c : Call α) : c.settle.2 = c.outcome := by
  unfold settle outcome
  cases c.answer <;> rfl

@[simp] theorem outcome_returned (a : α) : (returned a).outcome = .ok a := rfl

@[simp] theorem outcome_raised (r : Raised) : (raised r : Call α).outcome = .error r := rfl

@[simp] theorem outcome_ofExcept (x : Except Raised α) : (ofExcept x).outcome = x := by
  cases x <;> rfl

@[simp] theorem outcome_after (events : List Event) (c : Call α) :
    (c.after events).outcome = c.outcome := rfl

@[simp] theorem toPromise_outcome (c : Call α) : c.toPromise.outcome = c.outcome := by
  unfold toPromise outcome
  cases c.answer <;> rfl

theorem outcome_next (c : Call α) (f : α → Call β) :
    (c.next f).outcome = c.outcome >>= fun a => (f a).outcome := by
  obtain ⟨events, answer⟩ := c
  cases answer with
  | returned a => rfl
  | raised r => rfl
  | promised handles p =>
    obtain ⟨work, outcome⟩ := p
    cases outcome with
    | ok a => exact (f a).toPromise_outcome
    | error r => rfl

theorem outcome_recover (c : Call α) (f : Raised → Call α) :
    (c.recover f).outcome = c.outcome.tryCatch fun r => (f r).outcome := by
  obtain ⟨events, answer⟩ := c
  cases answer with
  | returned a => rfl
  | raised r => rfl
  | promised handles p =>
    obtain ⟨work, outcome⟩ := p
    cases outcome with
    | ok a => rfl
    | error r => exact (f r).toPromise_outcome

theorem outcome_mapRaised (c : Call α) (f : Raised → Raised) :
    (c.mapRaised f).outcome = c.outcome.mapError f := by
  unfold mapRaised
  rw [outcome_recover]
  cases c.outcome <;> rfl

/-- What comes of a call in deferred work that does not catch what it raises. -/
theorem awaited_outcome {c : Call α} (h : ∀ r, c.outcome = .error r → r.IsSteady) :
    c.awaited.outcome = c.outcome := by
  have hsteady : c.IsSteady := fun r hr => h r (by rw [outcome, hr])
  rw [hsteady.awaited_eq, toPromise_outcome]

/-- A call that promises nothing has answered or raised. -/
theorem answer_of_not_promised {c : Call α} (h : c.isPromised = false) :
    (∃ a, c.answer = .returned a) ∨ ∃ r, c.answer = .raised r := by
  cases hc : c.answer with
  | returned a => exact .inl ⟨a, rfl⟩
  | raised r => exact .inr ⟨r, rfl⟩
  | promised handles p => simp [isPromised, hc] at h

theorem isPromised_ofExcept (x : Except Raised α) : (ofExcept x).isPromised = false := by
  cases x <;> rfl

/-- A call that is not promised goes on at once, and is promised only by what it goes on with. -/
theorem isPromised_next_of_not {c : Call α} {f : α → Call β} (hc : c.isPromised = false)
    (hf : ∀ a, c.outcome = .ok a → (f a).isPromised = false) : (c.next f).isPromised = false := by
  obtain ⟨events, answer⟩ := c
  cases answer with
  | returned a => exact hf a rfl
  | raised r => rfl
  | promised handles p => simp [isPromised] at hc

/-- An answer is promised if the one that it goes on from is, or else by what it goes on with. -/
theorem isPromised_next (c : Call α) (f : α → Call β) :
    (c.next f).isPromised =
      (c.isPromised || match c.settle.2 with
        | .ok a => (f a).isPromised
        | .error _ => false) := by
  obtain ⟨events, answer⟩ := c
  cases answer <;> rfl

theorem isPromised_mapRaised (c : Call α) (f : Raised → Raised) :
    (c.mapRaised f).isPromised = c.isPromised := by
  obtain ⟨events, answer⟩ := c
  cases answer <;> rfl

theorem isPromised_recover_of_not {c : Call α} {f : Raised → Call α} (hc : c.isPromised = false)
    (hf : ∀ r, c.outcome = .error r → (f r).isPromised = false) :
    (c.recover f).isPromised = false := by
  obtain ⟨events, answer⟩ := c
  cases answer with
  | returned a => rfl
  | raised r => exact hf r rfl
  | promised handles p => simp [isPromised] at hc

/-- What a composite takes for the outcome of one of its entries: where the answer was promised, the
object of an exception counts as raised. -/
def judgement (c : Call Value) : Except Raised Value :=
  match c.answer, c.outcome with
  | .promised _ _, .ok v =>
    match v.trouble? with
    | some r => .error r
    | none => .ok v
  | _, x => x

theorem judgement_of_not_promised {c : Call Value} (h : c.isPromised = false) :
    c.judgement = c.outcome := by
  unfold judgement
  split
  · next handles p _ ha _ => simp [isPromised, ha] at h
  · rfl

theorem judgement_of_no_trouble {c : Call Value} (h : ∀ v, c.outcome = .ok v → v.trouble? = none) :
    c.judgement = c.outcome := by
  unfold judgement
  split
  · next v _ hv => rw [hv, h v hv]
  · rfl

theorem judgement_of_error {c : Call Value} {r : Raised} (h : c.outcome = .error r) :
    c.judgement = .error r := by
  rw [judgement_of_no_trouble (fun v hv => by cases h.symm.trans hv), h]

/-- What is accepted was answered, and is no trouble where it was promised. -/
theorem judgement_eq_ok {c : Call Value} {v : Value} :
    c.judgement = .ok v ↔ c.outcome = .ok v ∧ (c.isPromised = true → v.trouble? = none) := by
  unfold judgement isPromised
  cases c.answer with
  | promised handles p =>
    cases c.outcome with
    | error r => simp
    | ok u =>
      cases ht : u.trouble? with
      | none =>
        simp only [ht, Except.ok.injEq, forall_const, iff_self_and]
        rintro rfl
        exact ht
      | some r =>
        simp only [ht, reduceCtorEq, Except.ok.injEq, forall_const, false_iff, not_and]
        rintro rfl hnone
        cases ht.symm.trans hnone
  | _ => simp

/-- What is refused was raised, or was answered later as the object of what it is refused for. -/
theorem judgement_eq_error {c : Call Value} {r : Raised} :
    c.judgement = .error r ↔
      c.outcome = .error r ∨ c.isPromised = true ∧ ∃ v, c.outcome = .ok v ∧
      v.trouble? = some r := by
  unfold judgement isPromised
  cases c.answer with
  | promised handles p =>
    cases c.outcome with
    | error r' => simp
    | ok u => cases ht : u.trouble? <;> simp [ht]
  | _ => simp

/-- Calls that come to the same, at once or later alike, count as the same. -/
theorem judgement_congr {c d : Call Value} (hpromised : c.isPromised = d.isPromised)
    (houtcome : c.outcome = d.outcome) : c.judgement = d.judgement := by
  cases hc : c.judgement with
  | ok v =>
    rw [judgement_eq_ok, hpromised, houtcome] at hc
    exact (judgement_eq_ok.2 hc).symm
  | error r =>
    rw [judgement_eq_error, hpromised, houtcome] at hc
    exact (judgement_eq_error.2 hc).symm

end Call

/-! ## Entries -/

/-- Trouble is never a promise. -/
theorem Finding.ofRaised_ne_awaited {item v : Value} {r : Raised} {handles : List Handle}
    {p : Promise Value} : Finding.ofRaised item r ≠ .ok (.awaited v handles p) := by
  unfold Finding.ofRaised
  split <;> simp

namespace Entry

/-- What is known of an entry in the end, once its promise is kept. -/
def settled : Entry → Except Raised (Value × Finding)
  | .judged segment item p =>
    match (p [item]).judgement with
    | .ok v => .ok (segment, .accepted v)
    | .error r => do return (segment, ← Finding.ofRaised item r)
  | .refused segment (.ok f) => .ok (segment, .rejected f)
  | .refused _ (.error e) => .error (.fault e)
  | .kept segment item => .ok (segment, .accepted item)

theorem find_isPromised (e : Entry) : e.find.isPromised = false := by
  match e with
  | .judged segment item p =>
    simp only [find]
    split
    · rfl
    · split <;> rfl
    · rfl
  | .refused _ (.ok _) | .refused _ (.error _) | .kept _ _ => rfl

/-- An entry is settled by what is found at once and by the promise in it. -/
theorem settled_eq_find (e : Entry) :
    e.settled = e.find.outcome >>= fun found => do return (found.1, ← found.2.settled) := by
  match e with
  | .judged segment item p =>
    simp only [settled, find, Call.judgement, Call.outcome]
    cases (p [item]).answer with
    | returned v => rfl
    | raised r =>
      simp only
      cases h : Finding.ofRaised item r with
      | error r' => rfl
      | ok f =>
        cases f with
        | accepted v => rfl
        | rejected f => rfl
        | awaited v handles q => exact absurd h Finding.ofRaised_ne_awaited
    | promised handles q =>
      obtain ⟨work, outcome⟩ := q
      cases outcome with
      | error r => rfl
      | ok v =>
        simp only [Attempt.ok_bind, Finding.settled]
        cases v.trouble? <;> rfl
  | .refused _ (.ok _) | .refused _ (.error _) | .kept _ _ => rfl

theorem findAll_isPromised : ∀ entries : List Entry, (findAll entries).isPromised = false
  | [] => rfl
  | e :: rest => by
    unfold findAll
    refine Call.isPromised_next_of_not e.find_isPromised fun found _ => ?_
    exact Call.isPromised_next_of_not (findAll_isPromised rest) fun _ _ => rfl

theorem findAll_outcome : ∀ entries : List Entry,
    (findAll entries).outcome = entries.mapM fun e => e.find.outcome
  | [] => rfl
  | e :: rest => by
    simp only [findAll, Call.outcome_next, findAll_outcome rest, Call.outcome_returned,
      List.mapM_cons]
    rfl

end Entry

/-- An entry whose judgement is not ended by a cancellation. -/
def Entry.IsCalm (e : Entry) : Prop := e.settled ≠ .error .cancelled

/-! ## Composites -/

namespace Composite

theorem mem_failures {findings : List (Value × Finding)} {part : Value × Failure} :
    part ∈ failures findings ↔ (part.1, Finding.rejected part.2) ∈ findings := by
  unfold failures
  rw [List.mem_filterMap]
  constructor
  · rintro ⟨⟨segment, f⟩, hf, heq⟩
    cases f with
    | rejected f =>
      cases heq
      exact hf
    | _ => cases heq
  · exact fun h => ⟨_, h, rfl⟩

theorem mem_answers {findings : List (Value × Finding)} {answer : Value × Value} :
    answer ∈ answers findings ↔ (answer.1, Finding.accepted answer.2) ∈ findings := by
  unfold answers
  rw [List.mem_filterMap]
  constructor
  · rintro ⟨⟨segment, f⟩, hf, heq⟩
    cases f with
    | accepted v =>
      cases heq
      exact hf
    | _ => cases heq
  · exact fun h => ⟨_, h, rfl⟩

/-- A composite accepts where there is no failure among the findings, and is built from the
answers. -/
theorem conclude_eq_ok {c : Composite} {findings : List (Value × Finding)} {v : Value}
    (h : (c.conclude findings).2 = .ok v) :
    failures findings = [] ∧ v = c.build (answers findings) := by
  unfold conclude at h
  split at h
  · next hnone =>
    cases h
    exact ⟨hnone, rfl⟩
  · split at h <;> cases h

/-- Every finding, once the promises are kept. -/
def settledAll (findings : List (Value × Finding)) : Except Raised (List (Value × Finding)) :=
  findings.mapM fun found => do return (found.1, ← found.2.settled)

theorem settleAll_eq {findings : List (Value × Finding)}
    (h : ∀ found ∈ findings, found.2.isCancelled = false) :
    settleAll findings = settledAll findings := by
  unfold settleAll
  rw [if_neg]
  · rfl
  · simpa using h

theorem settledAll_of_no_promise : ∀ {findings : List (Value × Finding)},
    (∀ found ∈ findings, found.2.promise? = none) → settledAll findings = .ok findings
  | [], _ => rfl
  | (segment, f) :: rest, h => by
    have ih := settledAll_of_no_promise fun g hg => h g (List.mem_cons_of_mem _ hg)
    have hf : f.settled = .ok f := by
      have := h _ List.mem_cons_self
      cases f with
      | accepted v => rfl
      | rejected f => rfl
      | awaited v handles p => simp [Finding.promise?] at this
    unfold settledAll at ih ⊢
    rw [List.mapM_cons, ih]
    simp [hf]

theorem awaiting_outcome {c : Composite} {findings : List (Value × Finding)}
    (h : ∀ found ∈ findings, found.2.isCancelled = false) :
    (c.awaiting findings).outcome = settledAll findings >>= fun fs => (c.conclude fs).2 := by
  unfold awaiting
  rw [settleAll_eq h]
  cases settledAll findings <;> rfl

/-- An entry whose promise ends in a cancellation is settled by it. -/
theorem settled_of_isCancelled {e : Entry} {found : Value × Finding}
    (he : e.find.outcome = .ok found) (h : found.2.isCancelled = true) :
    e.settled = .error .cancelled := by
  rw [e.settled_eq_find, he]
  obtain ⟨segment, f⟩ := found
  match f, h with
  | .awaited item handles ⟨_, .error .cancelled⟩, _ => rfl

/-- The outcome of a composite is the one of its entries, each settled on its own, in their order.
But first comes what ends the judgement of an entry at once. -/
theorem collect_outcome {c : Composite} {entries : List Entry} (h : ∀ e ∈ entries, e.IsCalm) :
    (c.collect entries).outcome = (entries.mapM fun e => e.find.outcome) >>= fun _ =>
      entries.mapM Entry.settled >>= fun findings => (c.conclude findings).2 := by
  unfold collect
  rw [Call.outcome_next, Entry.findAll_outcome]
  cases hfind : entries.mapM fun e => e.find.outcome with
  | error r' => rfl
  | ok findings =>
    have hrounds : settledAll findings = entries.mapM Entry.settled := by
      unfold settledAll
      rw [Attempt.mapM_of_mapM_eq_ok hfind, funext Entry.settled_eq_find]
    have hcancel : ∀ found ∈ findings, found.2.isCancelled = false := by
      intro found hfound
      obtain ⟨e, he, hef⟩ := Attempt.exists_of_mem_mapM hfind hfound
      exact Bool.eq_false_iff.2 fun hc => h e he (settled_of_isCancelled hef hc)
    simp only [Attempt.ok_bind]
    rw [← hrounds]
    split
    · exact awaiting_outcome hcancel
    · next hpromise =>
      rw [settledAll_of_no_promise (by simpa using hpromise)]
      simp

/-- Where trouble that ends the judgement is always `r`, it does not matter when it is met. -/
theorem collect_outcome_of_alike {c : Composite} {entries : List Entry} {r : Raised}
    (hr : r ≠ .cancelled) (h : ∀ e ∈ entries, ∀ r', e.settled = .error r' → r' = r) :
    (c.collect entries).outcome =
      entries.mapM Entry.settled >>= fun findings => (c.conclude findings).2 := by
  have hfirst : ∀ e ∈ entries, ∀ r', e.find.outcome = .error r' → e.settled = .error r' := by
    intro e _ r' hfind
    rw [e.settled_eq_find, hfind, Attempt.error_bind]
  rw [collect_outcome fun e he hc => hr (h e he _ hc).symm, ← Attempt.mapM_after_mapM hfirst h]
  cases entries.mapM fun e => e.find.outcome <;> rfl

end Composite

end Attest
