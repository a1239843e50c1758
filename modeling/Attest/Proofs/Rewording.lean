import Attest.Proofs.Containment
import Attest.Proofs.Placement
import Attest.Proofs.Substitution

/-!
# Rewording

What the messages of records and lists are good for: nothing but the words of the failures of
wholes. Two steps that differ only in them answer the same, promise their answers for the same
arguments, and fail with the same leaves, one by one and in the same order.

* `Step.Reworded`: a step, and the same step with other messages on its records and lists.
* `Call.Matches`: two calls that are promised alike and come to the same, but for the words of
  wholes.
* `Reworded.program_matches`: on writable runs, a step and its rewording match.
-/

namespace Attest

/-! ## Failures and outcomes -/

/-- Two failures that are the same, or are both failures of wholes with the same leaves. -/
inductive Failure.SameLeaves : Failure → Failure → Prop
  | refl (f : Failure) : SameLeaves f f
  | wholes {f g : Failure} :
      f.children ≠ [] → g.children ≠ [] → f.leaves = g.leaves → SameLeaves f g

namespace Failure.SameLeaves

variable {f g : Failure}

theorem leaves_eq (h : f.SameLeaves g) : f.leaves = g.leaves := by
  cases h with
  | refl => rfl
  | wholes _ _ h => exact h

theorem moved_children_ne_nil {outer : Trail} (h : f.children ≠ []) :
    (f.moved outer).children ≠ [] := by
  obtain ⟨n, children⟩ := f
  cases children with
  | nil => exact absurd rfl h
  | cons child rest => exact List.cons_ne_nil _ _

theorem moved (h : f.SameLeaves g) (outer : Trail) :
    (f.moved outer).SameLeaves (g.moved outer) := by
  cases h with
  | refl => exact .refl _
  | wholes hf hg h =>
    refine .wholes (moved_children_ne_nil hf) (moved_children_ne_nil hg) ?_
    rw [leaves_moved, leaves_moved, h]

theorem placed (h : f.SameLeaves g) (segment : Value) :
    (f.placed segment).SameLeaves (g.placed segment) := by
  cases h with
  | refl => exact .refl _
  | wholes hf hg h =>
    have keyed : ∀ {f : Failure}, f.children ≠ [] →
        (Failure.mk (f.notice.withKey segment) f.children).leaves = f.leaves := by
      rintro ⟨n, children⟩ hne
      have hne : children ≠ [] := hne
      simp only [Failure.children, leaves_of_children hne]
    unfold Failure.placed
    split
    · exact .wholes hf hg h
    · have hkeyed : SameLeaves (.mk (f.notice.withKey segment) f.children)
          (.mk (g.notice.withKey segment) g.children) := by
        refine .wholes hf hg ?_
        rw [keyed hf, keyed hg, h]
      exact hkeyed.moved [segment]

/-- Wholes with the same leaves in their parts, whatever is said of the wholes. -/
theorem worded {n n' : Notice} {fs gs : List Failure}
    (h : List.Forall₂ SameLeaves fs gs) (hne : fs ≠ []) :
    (Failure.worded n fs).SameLeaves (Failure.worded n' gs) := by
  have hleaves : leavesOf fs = leavesOf gs := by
    clear hne
    induction h with
    | nil => rfl
    | cons hf _ ih => rw [leavesOf, leavesOf, hf.leaves_eq, ih]
  have hne' : gs ≠ [] := by
    rintro rfl
    exact hne (List.forall₂_nil_right_iff.1 h)
  refine .wholes hne hne' ?_
  rw [Failure.worded, Failure.worded, leaves_of_children hne, leaves_of_children hne', hleaves]

end Failure.SameLeaves

/-- Two outcomes that are the same, or are both failures, with the same leaves. -/
inductive SameOutcome : Except Raised Value → Except Raised Value → Prop
  | refl (x : Except Raised Value) : SameOutcome x x
  | failures {f g : Failure} :
      f.SameLeaves g → SameOutcome (.error (.failure f)) (.error (.failure g))

namespace SameOutcome

variable {x y : Except Raised Value}

theorem mapError (h : SameOutcome x y) {change : Raised → Raised}
    (hchange : ∀ {f g : Failure}, x = .error (.failure f) →
      y = .error (.failure g) → f.SameLeaves g →
      SameOutcome (.error (change (.failure f))) (.error (change (.failure g)))) :
    SameOutcome (x.mapError change) (y.mapError change) := by
  cases h with
  | refl => exact .refl _
  | failures h => exact hchange rfl rfl h

theorem promote (h : SameOutcome x y) (got comparison : Value) :
    SameOutcome (x.mapError (Raised.promote got comparison))
      (y.mapError (Raised.promote got comparison)) :=
  h.mapError fun _ _ h => .failures h

/-- Outcomes of validators that raise nothing but failures. -/
theorem answers_or_leaves (h : SameOutcome x y) (hy : Contained false y) :
    (∃ v, x = .ok v ∧ y = .ok v) ∨
      ∃ f g, x = .error (.failure f) ∧ y = .error (.failure g) ∧ f.leaves = g.leaves := by
  cases h with
  | refl =>
    rcases hy.ok_or_failure with ⟨v, hv⟩ | ⟨f, hf⟩
    · exact .inl ⟨v, hv, hv⟩
    · exact .inr ⟨f, f, hf, hf, rfl⟩
  | @failures f g h => exact .inr ⟨f, g, rfl, rfl, h.leaves_eq⟩

end SameOutcome

/-- Two calls that are promised alike and come to the same, but for the words of wholes. -/
structure Call.Matches (c d : Call Value) : Prop where
  promised : c.isPromised = d.isPromised
  outcome : SameOutcome c.outcome d.outcome

namespace Call.Matches

theorem refl (c : Call Value) : c.Matches c := ⟨rfl, .refl _⟩

variable {c d : Call Value}

theorem mapRaised (h : c.Matches d) {change : Raised → Raised}
    (hchange : ∀ {f g : Failure}, c.outcome = .error (.failure f) →
      d.outcome = .error (.failure g) →
      f.SameLeaves g → SameOutcome (.error (change (.failure f))) (.error (change (.failure g)))) :
    (c.mapRaised change).Matches (d.mapRaised change) := by
  constructor
  · rw [isPromised_mapRaised, isPromised_mapRaised, h.promised]
  · rw [outcome_mapRaised, outcome_mapRaised]
    exact h.outcome.mapError hchange

/-- In a composite they count as the same, but for the words of wholes. -/
theorem judgement (h : c.Matches d) : SameOutcome c.judgement d.judgement := by
  have houtcome := h.outcome
  generalize hx : c.outcome = x, hy : d.outcome = y at houtcome
  cases houtcome with
  | refl =>
    rw [judgement_congr h.promised (hx.trans hy.symm)]
    exact .refl _
  | failures h =>
    rw [judgement_of_error hx, judgement_of_error hy]
    exact .failures h

/-- Going on from one call in two ways that agree. -/
theorem next (c : Call Value) {f g : Value → Call Value}
    (h : ∀ v, c.outcome = .ok v → (f v).Matches (g v)) :
    (c.next f).Matches (c.next g) := by
  simp only [← settle_snd] at h
  constructor
  · rw [isPromised_next, isPromised_next]
    cases hc : c.settle.2 with
    | ok v => simp only [(h v hc).promised]
    | error r => rfl
  · rw [outcome_next, outcome_next, ← settle_snd]
    cases hc : c.settle.2 with
    | ok v => exact (h v hc).outcome
    | error r => exact .refl _

end Call.Matches

/-! ## Entries and composites -/


/-- Two findings that are the same, or are both failures, with the same leaves. -/
inductive Finding.SameLeaves : Finding → Finding → Prop
  | refl (f : Finding) : SameLeaves f f
  | rejected {f g : Failure} : f.SameLeaves g → SameLeaves (.rejected f) (.rejected g)

namespace Entry

/-- Whether the judgement of an entry is promised for later. -/
def defers : Entry → Bool
  | .judged _ item p => (p [item]).isPromised
  | _ => false

/-- What is found of an entry at once. -/
def sight (e : Entry) : Finding :=
  match e.find.outcome with
  | .ok found => found.2
  | .error _ => .accepted .missing

theorem IsWritable.find_outcome {e : Entry} (h : e.IsWritable) :
    e.find.outcome = .ok (e.segment, e.sight) ∧ e.sight.promise?.isSome = e.defers := by
  cases h with
  | @judged segment item p _ hi hr =>
    unfold sight
    simp only [find, defers, Entry.segment, Call.isPromised]
    cases hc : (p [item]).answer with
    | returned v => exact ⟨rfl, rfl⟩
    | raised r =>
      have hr := hr r (by simp only [Call.outcome, hc])
      simp only [Finding.ofRaised, Raised.promote_eq hr.1 hi (Value.isWritable_text "struct")]
      exact ⟨rfl, rfl⟩
    | promised handles q => exact ⟨rfl, rfl⟩
  | refused | kept => exact ⟨rfl, rfl⟩

/-- Two entries for the same segment that can be written, are promised alike and come to the same,
but for the words of wholes. -/
structure Matches (e e' : Entry) : Prop where
  left : e.IsWritable
  right : e'.IsWritable
  segment : e.segment = e'.segment
  defers : e.defers = e'.defers
  found : e.found.SameLeaves e'.found

theorem IsWritable.matches_self {e : Entry} (h : e.IsWritable) :
    e.Matches e := ⟨h, h, rfl, rfl, .refl _⟩

theorem Matches.judged {segment item : Value} {p q : Program} (hs : segment.isWritable = true)
    (hi : item.isWritable = true) (hp : Contained true (p [item]).outcome)
    (hq : Contained true (q [item]).outcome) (h : (p [item]).Matches (q [item])) :
    (Entry.judged segment item p).Matches (.judged segment item q) := by
  refine ⟨(StaysWritable.judged hs hi hp).isWritable,
    (StaysWritable.judged hs hi hq).isWritable, rfl, h.promised, ?_⟩
  have hjudgement := h.judgement
  simp only [Entry.found]
  generalize (p [item]).judgement = x, (q [item]).judgement = y at hjudgement
  cases hjudgement with
  | refl => exact .refl _
  | failures h => exact .rejected h

end Entry

namespace Composite

/-- A composite is promised if the judgement of one of its entries is. -/
theorem collect_isPromised_eq {c : Composite} {entries : List Entry}
    (h : ∀ e ∈ entries, e.IsWritable) :
    (c.collect entries).isPromised = entries.any Entry.defers := by
  have hfind : (Entry.findAll entries).settle.2 = .ok
    (entries.map fun e => (e.segment, e.sight)) := by
    rw [Call.settle_snd, Entry.findAll_outcome]
    exact Attempt.mapM_eq_ok fun e he => (h e he).find_outcome.1
  have hany : (entries.any fun e => e.sight.promise?.isSome) = entries.any Entry.defers := by
    rw [Bool.eq_iff_iff, List.any_eq_true, List.any_eq_true]
    exact exists_congr fun e => and_congr_right fun he => Bool.eq_iff_iff.1 (h e he).find_outcome.2
  unfold collect
  rw [Call.isPromised_next, Entry.findAll_isPromised, hfind, Bool.false_or]
  simp only [List.any_map, Function.comp_def, hany]
  cases entries.any Entry.defers with
  | true => rfl
  | false => exact Call.isPromised_ofExcept _

section
variable {findings findings' : List (Value × Finding)}
  (h : List.Forall₂ (fun a b : Value × Finding => a.1 = b.1 ∧ a.2.SameLeaves b.2)
    findings findings')
include h

theorem answers_eq_of_sameLeaves : answers findings = answers findings' := by
  induction h with
  | nil => rfl
  | @cons a b _ _ hab _ ih =>
    obtain ⟨segment, f⟩ := a
    obtain ⟨segment', g⟩ := b
    obtain ⟨rfl, hfg⟩ : segment = segment' ∧ f.SameLeaves g := hab
    unfold answers at ih ⊢
    rw [List.filterMap_cons, List.filterMap_cons, ih]
    cases hfg <;> rfl

theorem parts_sameLeaves : List.Forall₂ Failure.SameLeaves
    ((failures findings).map fun part => part.2.placed part.1)
    ((failures findings').map fun part => part.2.placed part.1) := by
  induction h with
  | nil => exact .nil
  | @cons a b _ _ hab _ ih =>
    obtain ⟨segment, f⟩ := a
    obtain ⟨segment', g⟩ := b
    obtain ⟨rfl, hfg⟩ : segment = segment' ∧ f.SameLeaves g := hab
    unfold failures at ih ⊢
    cases hfg with
    | refl =>
      cases f with
      | rejected f => exact .cons (.refl _) ih
      | accepted | awaited => exact ih
    | rejected hfg => exact .cons (hfg.placed segment) ih

/-- The same is concluded from findings that differ in the words of wholes only, but for those
words. -/
theorem concluded_matches {build : List (Value × Value) → Value} {whole whole' : Notice} :
    SameOutcome (concluded build whole findings) (concluded build whole' findings') := by
  have hparts := parts_sameLeaves h
  unfold concluded
  cases hf : failures findings with
  | nil =>
    rw [hf, List.map_nil, List.forall₂_nil_left_iff, List.map_eq_nil_iff] at hparts
    rw [hparts, answers_eq_of_sameLeaves h]
    exact .refl _
  | cons part parts =>
    rw [hf] at hparts
    cases hg : failures findings' with
    | nil =>
      rw [hg] at hparts
      cases hparts
    | cons part' parts' =>
      rw [hg] at hparts
      exact .failures (.worded hparts (List.cons_ne_nil _ _))

end

/-- Composites of the same build whose entries match, whatever is said of the wholes. -/
theorem collect_matches {build : List (Value × Value) → Value} {message message' : Value}
    {comparison : String} (hm : message.isMessage = true) (hm' : message'.isMessage = true)
    {entries entries' : List Entry} (hcount : (Value.int entries.length).isWritable = true)
    (h : List.Forall₂ Entry.Matches entries entries') :
    (collect ⟨build, Failure.make (outline message comparison) []⟩ entries).Matches
      (collect ⟨build, Failure.make (outline message' comparison) []⟩ entries') := by
  have hleft : ∀ e ∈ entries, e.IsWritable :=
    ((List.forall₂_and_left _ _).1 (h.imp fun _ _ he => ⟨he.left, he⟩)).1
  have hright : ∀ e ∈ entries', e.IsWritable :=
    ((List.forall₂_and_left _ _).1 (h.flip.imp fun _ _ he => ⟨he.right, he⟩)).1
  constructor
  · rw [collect_isPromised_eq hleft, collect_isPromised_eq hright]
    clear hcount hleft hright
    induction h with
    | nil => rfl
    | cons he _ ih => rw [List.any_cons, List.any_cons, he.defers, ih]
  · rw [collect_eq _ rfl (outline_isTyped hm comparison)
      (outline_areWritable message comparison) hcount hleft, collect_eq _ rfl
        (outline_isTyped hm' comparison) (outline_areWritable message' comparison)
        (h.length_eq ▸ hcount) hright]
    refine concluded_matches ?_
    rw [List.forall₂_map_left_iff, List.forall₂_map_right_iff]
    exact h.imp fun _ _ he => ⟨he.segment, he.found⟩

end Composite

/-! ## Steps -/

/-- A key of two records, and the steps that they have for it. -/
structure Step.Pair where
  key : Value
  left : Step
  right : Step

namespace Step

/-- A step, and the same step with other messages on its records and lists. All messages are
texts. -/
inductive Reworded : Step → Step → Prop
  | same {s : Step} : s.isTame true = true → Reworded s s
  | fields (mode : Mode) {message message' : Value} {pairs : List Pair} : message.isMessage = true →
      message'.isMessage = true → (∀ pair ∈ pairs, Reworded pair.left pair.right) →
      Reworded (.fields mode message (pairs.map fun pair => (pair.key, pair.left)))
        (.fields mode message' (pairs.map fun pair => (pair.key, pair.right)))
  | elements {message message' : Value} {s t : Step} : message.isMessage = true →
      message'.isMessage = true → Reworded s t → Reworded (.elements message s)
        (.elements message' t)
  | andThen {first s t : Step} : first.isTame true = true → Reworded s t →
      Reworded (.andThen first s) (.andThen first t)
  | inside (path : List Value) {s t : Step} :
      Reworded s t → Reworded (.inside path s) (.inside path t)

/-- Of the fields the first one with the key counts. -/
theorem fieldStaysWritable_map {α : Type} (w : World) (key item : Value)
    (k : α → Value) (s : α → Step) (members : List α) :
    fieldStaysWritable w key item (members.map fun m => (k m, s m)) =
      match members.find? fun m => (k m).same key with
      | some m => (s m).staysWritable w [item]
      | none => true := by
  induction members with
  | nil => simp [fieldStaysWritable]
  | cons m rest ih =>
    simp only [List.map_cons, fieldStaysWritable, ih, List.find?_cons]
    cases (k m).same key <;> rfl

theorem programFor?_map {α : Type} (w : World) (key : Value) (k : α → Value) (s : α → Step)
    (members : List α) :
    Fields.programFor? (fieldPrograms w (members.map fun m => (k m, s m))) key =
      (members.find? fun m => (k m).same key).map fun m => (s m).program w := by
  rw [fieldPrograms_eq_map, List.map_map, Fields.programFor?, List.find?_map, Option.map_map]
  rfl

namespace Reworded

variable {s t : Step} {w : World}

theorem isTame (h : Reworded s t) : s.isTame true = true ∧ t.isTame true = true := by
  induction h with
  | same h => exact ⟨h, h⟩
  | fields mode hm hm' _ ih =>
    simp only [Step.isTame, hm, hm', Bool.true_and, fieldsAreTame_iff, List.forall_mem_map]
    exact ⟨fun pair hp => (ih pair hp).1, fun pair hp => (ih pair hp).2⟩
  | elements hm hm' _ ih => simp only [Step.isTame, hm, hm', ih, Bool.and_self, and_self]
  | andThen hfirst _ ih => simp only [Step.isTame, hfirst, ih, Bool.and_self, and_self]
  | inside path _ ih => simpa only [Step.isTame] using ih

/-- What a run meets does not depend on the messages. -/
theorem staysWritable_eq (h : Reworded s t) :
    ∀ args, s.staysWritable w args = t.staysWritable w args := by
  induction h with
  | same _ => exact fun _ => rfl
  | fields mode _ _ hpairs ih =>
    intro args
    simp only [Step.staysWritable, List.map_map, Function.comp_def, fieldStaysWritable_map]
    split
    · rfl
    · congr 2
      funext e
      congr 1
      split
      · next pair hpair => exact ih pair (List.mem_of_find?_eq_some hpair) _
      · rfl
  | elements _ _ _ ih => exact fun args => by simp only [Step.staysWritable, ih]
  | andThen _ _ ih => exact fun args => by simp only [Step.staysWritable, ih]
  | inside path _ ih => exact fun args => by simp only [Step.staysWritable, ih]

/-- An item judged by a step and by its rewording, where the calls match. -/
theorem judged_matches (hw : w.NeverCancels) (h : Reworded s t) {segment item : Value}
    (hs : segment.isWritable = true) (hi : item.isWritable = true)
    (hrun : s.staysWritable w [item] = true)
    (ih : ∀ args, args.all Value.isWritable = true → s.staysWritable w args = true →
      (s.program w args).Matches (t.program w args)) :
    (Entry.judged segment item (s.program w)).Matches (.judged segment item (t.program w)) := by
  have hone : [item].all Value.isWritable = true := by simpa using hi
  have hleft := Step.contained_raw hw s [item] h.isTame.1 hone hrun
  have hright := Step.contained_raw hw t [item] h.isTame.2 hone (h.staysWritable_eq [item] ▸ hrun)
  exact .judged hs hi hleft hright (ih [item] hone hrun)

theorem elements_matches (hw : w.NeverCancels) {message message' : Value}
    (hm : message.isMessage = true) (hm' : message'.isMessage = true) (h : Reworded s t)
    {args : List Value} (ih : ∀ args, args.all Value.isWritable = true →
      s.staysWritable w args = true →
      (s.program w args).Matches (t.program w args))
    (hrun : (Step.elements message s).staysWritable w args = true) :
    ((Step.elements message s).program w args).Matches
      ((Step.elements message' t).program w args) := by
  simp only [Step.program, Program.elements]
  simp only [Step.staysWritable] at hrun
  cases hitems : (firstArgument args).iterate with
  | error e => exact .refl _
  | ok items =>
    simp only [hitems, Bool.and_eq_true, List.all_eq_true] at hrun
    obtain ⟨hcount, hall⟩ := hrun
    refine Composite.collect_matches hm hm' (by simpa using hcount) ?_
    rw [List.forall₂_map_left_iff, List.forall₂_map_right_iff, List.forall₂_same]
    intro place hplace
    have hlt : place.1 < items.length := List.mem_range.1 (List.of_mem_zip hplace).1
    have hitem := hall place.2 (List.of_mem_zip hplace).2
    exact judged_matches hw h (Value.isWritable_int_of_le (Nat.le_of_lt hlt) hcount)
      hitem.1 hitem.2 ih

/-- What becomes of a key of the input matches in two records whose fields are rewordings. -/
theorem entry?_matches (hw : w.NeverCancels) {mode : Mode} {pairs : List Pair}
    (h : ∀ pair ∈ pairs, Reworded pair.left pair.right)
    (ih : ∀ pair ∈ pairs, ∀ args, args.all Value.isWritable = true →
      pair.left.staysWritable w args = true →
      (pair.left.program w args).Matches (pair.right.program w args))
    {key item : Value} (hkey : key.isWritable = true) (hitem : item.isWritable = true)
    (hrun : fieldStaysWritable w key item (pairs.map fun pair => (pair.key, pair.left)) = true) :
    Option.Rel Entry.Matches
      (Fields.entry? mode (fieldPrograms w (pairs.map fun pair => (pair.key, pair.left))) key item)
      (Fields.entry? mode (fieldPrograms w (pairs.map fun pair => (pair.key, pair.right))) key
        item) := by
  simp only [Fields.entry?, programFor?_map]
  rw [fieldStaysWritable_map] at hrun
  cases hfind : pairs.find? fun pair => pair.key.same key with
  | some pair =>
    have hpair := List.mem_of_find?_eq_some hfind
    rw [hfind] at hrun
    exact .some (judged_matches hw (h pair hpair) hkey hitem hrun (ih pair hpair))
  | none =>
    cases mode with
    | strict =>
      refine .some (Entry.IsWritable.matches_self ?_)
      rw [Fields.unknownKey_eq hkey hitem]
      exact .refused hkey (Fields.unknown_isWritable hkey hitem)
    | all => exact .some (Entry.IsWritable.matches_self (.kept hkey hitem))
    | defined | given => exact .none

theorem fields_matches (hw : w.NeverCancels) {mode : Mode} {message message' : Value}
    {pairs : List Pair} (hm : message.isMessage = true) (hm' : message'.isMessage = true)
    (h : ∀ pair ∈ pairs, Reworded pair.left pair.right) {args : List Value}
    (hargs : args.all Value.isWritable = true)
    (ih : ∀ pair ∈ pairs, ∀ args, args.all Value.isWritable = true →
      pair.left.staysWritable w args = true →
      (pair.left.program w args).Matches (pair.right.program w args))
    (hrun : (Step.fields mode message
      (pairs.map fun pair => (pair.key, pair.left))).staysWritable w args = true) :
    ((Step.fields mode message
      (pairs.map fun pair => (pair.key, pair.left))).program w args).Matches
      ((Step.fields mode message'
        (pairs.map fun pair => (pair.key, pair.right))).program w args) := by
  have hv := Program.firstArgument_isWritable hargs
  simp only [Step.program, Program.fields, fieldPrograms_keys, List.map_map, Function.comp_def]
  simp only [Step.staysWritable, List.map_map, Function.comp_def] at hrun
  cases hinput : (firstArgument args).entries? with
  | none => exact .refl _
  | some input =>
    simp only [hinput, Bool.and_eq_true, List.all_eq_true] at hrun
    obtain ⟨hcount, hall⟩ := hrun
    have hitems := Fields.working_isWritable mode (pairs.map fun pair => pair.key) hv hinput
    refine Composite.collect_matches hm hm'
      (Value.isWritable_int_of_le (List.length_filterMap_le _ _) hcount) ?_
    have hworking :
      List.Forall₂ (fun a b => a ∈ Fields.working mode (pairs.map fun pair => pair.key) input ∧
        a = b) _ _ := List.forall₂_same.2 fun _ he => ⟨he, rfl⟩
    refine List.rel_filterMap ?_ hworking
    rintro e _ ⟨he, rfl⟩
    obtain ⟨hkey, hstep⟩ := hall e he
    exact entry?_matches hw h ih hkey (hitems e he) hstep

/-- On a writable run, a step and its rewording are promised alike and come to the same, but for the
words of the failures of wholes. -/
theorem program_matches (hw : w.NeverCancels) (h : Reworded s t) : ∀ args,
    args.all Value.isWritable = true → s.staysWritable w args = true →
      (s.program w args).Matches (t.program w args) := by
  induction h with
  | same _ => exact fun _ _ _ => .refl _
  | fields mode hm hm' h ih => exact fun args hargs hrun => fields_matches hw hm hm' h hargs ih hrun
  | elements hm hm' h ih => exact fun args _ hrun => elements_matches hw hm hm' h ih hrun
  | @andThen first s t hfirst h ih =>
    intro args hargs hrun
    simp only [Step.staysWritable, Bool.and_eq_true] at hrun
    simp only [Step.program, Program.andThen_eq]
    refine .next _ fun v hv => ?_
    rw [Program.guarded_eq, Program.guarded_eq]
    refine .mapRaised ?_ fun _ _ h => .failures h
    have hnext := hrun.2
    rw [hv] at hnext
    have hvw := (Step.contained_raw hw first args hfirst hargs hrun.1)
    rw [hv] at hvw
    exact ih [v] (by simpa using hvw.isWritable_ok) hnext
  | @inside path s t h ih =>
    intro args hargs hrun
    simp only [Step.staysWritable, Bool.and_eq_true] at hrun
    have hleft := Step.contained_raw hw s args h.isTame.1 hargs hrun.2
    have hright := Step.contained_raw hw t args h.isTame.2 hargs (h.staysWritable_eq args ▸ hrun.2)
    simp only [Step.program, Program.inside_eq]
    refine (ih args hargs hrun.2).mapRaised fun hf hg hleaves => ?_
    rw [hf] at hleft
    rw [hg] at hright
    simp only [Failure.inside_eq hrun.1 hleft.isWritable_error, Failure.inside_eq hrun.1
      hright.isWritable_error]
    split
    · exact .failures hleaves
    · exact .failures (hleaves.moved path)

end Reworded

end Step

end Attest
