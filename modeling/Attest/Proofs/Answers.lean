import Attest.Proofs.Cancellation
import Attest.Proofs.Collecting

/-!
# Answers

When records and lists accept, and what they answer then. Each key, or item, is accepted by its own
program; the answers stand in the order of the keys, or of the items. No entry is of any matter to
another one.

* `Fields.Answered`: the answers for the keys that a record goes through.
* `fields_eq_ok_iff`, `elements_eq_ok_iff`: a record, or a list, accepts just where all in it is
  accepted.
-/

namespace Attest

/-! ## Entries -/

namespace Entry

/-- An entry comes to an answer under its segment. -/
def Accepts (e : Entry) (answer : Value × Value) : Prop :=
  e.settled = .ok (answer.1, .accepted answer.2)

theorem judged_accepts {segment item : Value} {p : Program} {answer : Value × Value} :
    (judged segment item p).Accepts answer ↔ segment = answer.1 ∧
    (p [item]).judgement = .ok answer.2 := by
  simp only [Accepts, settled]
  cases hx : (p [item]).judgement with
  | ok v => simp
  | error r =>
    have hnot : ∀ v, Finding.ofRaised item r ≠ .ok (.accepted v) := by
      intro v
      unfold Finding.ofRaised
      split <;> simp
    simp only [Attempt.bind_eq_ok, Attempt.pure_eq_ok, Except.ok.injEq, Prod.mk.injEq,
      reduceCtorEq, and_false, iff_false]
    rintro ⟨f, hf, -, rfl⟩
    exact hnot _ hf

theorem not_refused_accepts {segment : Value} {x : Except Fault Failure} {answer : Value × Value} :
    ¬ (refused segment x).Accepts answer := by
  cases x <;> simp [Accepts, settled]

theorem kept_accepts {segment item : Value} {answer : Value × Value} :
    (kept segment item).Accepts answer ↔ (segment, item) = answer := by
  simp [Accepts, settled, Prod.ext_iff]

/-- What is settled is no longer awaited. -/
theorem settled_ne_awaited {e : Entry} {segment item : Value} {handles : List Handle}
    {p : Promise Value} : e.settled ≠ .ok (segment, .awaited item handles p) := by
  match e with
  | .judged segment' item' q =>
    simp only [settled]
    cases hx : (q [item']).judgement with
    | ok v => simp
    | error r =>
      simp only [ne_eq, Attempt.bind_eq_ok, Attempt.pure_eq_ok, Except.ok.injEq, Prod.mk.injEq]
      rintro ⟨f, hf, -, rfl⟩
      exact Finding.ofRaised_ne_awaited hf
  | .refused _ (.ok _) | .refused _ (.error _) | .kept _ _ => simp [settled]

end Entry

namespace Composite

variable {c : Composite} {entries : List Entry}

/-- Findings of which none is a failure are answers. -/
theorem accepts_of_no_failures : ∀ {entries : List Entry} {findings : List (Value × Finding)},
    entries.mapM Entry.settled = .ok findings → failures findings = [] →
      List.Forall₂ Entry.Accepts entries (answers findings)
  | [], findings, h, _ => by
    cases h
    exact .nil
  | e :: rest, findings, h, hnone => by
    rw [List.mapM_cons] at h
    obtain ⟨⟨segment, f⟩, he, h⟩ := Attempt.bind_eq_ok.1 h
    obtain ⟨more, hrest, h⟩ := Attempt.bind_eq_ok.1 h
    cases h
    cases f with
    | accepted v => exact .cons he (accepts_of_no_failures hrest hnone)
    | rejected f => cases hnone
    | awaited item handles p => exact absurd he Entry.settled_ne_awaited

theorem settled_of_accepts {answers : List (Value × Value)}
    (h : List.Forall₂ Entry.Accepts entries answers) :
    entries.mapM Entry.settled = .ok (answers.map fun answer =>
      (answer.1, .accepted answer.2)) := by
  induction h with
  | nil => rfl
  | cons h _ ih =>
    rw [List.mapM_cons, h, Attempt.ok_bind, ih]
    rfl

theorem conclude_accepted (answers : List (Value × Value)) :
    (c.conclude (answers.map fun answer => (answer.1, .accepted answer.2))).2 = .ok
      (c.build answers) := by
  have hfailures :
    failures (answers.map fun answer => (answer.1, Finding.accepted answer.2)) = [] := by
    simp [failures]
  have hanswers :
    Composite.answers (answers.map fun answer => (answer.1, Finding.accepted answer.2)) =
      answers := by
    simp [Composite.answers]
  unfold conclude
  rw [hfailures, hanswers]

/-- Where all entries are settled in the end, something was found of each of them at once. -/
theorem find_of_settled {settled : List (Value × Finding)}
    (h : entries.mapM Entry.settled = .ok settled) :
    ∃ findings, (entries.mapM fun e => e.find.outcome) = .ok findings := by
  cases hfind : entries.mapM fun e => e.find.outcome with
  | ok findings => exact ⟨findings, rfl⟩
  | error r =>
    obtain ⟨e, he, hr⟩ := Attempt.exists_of_mapM_error hfind
    obtain ⟨found, hfound⟩ := Attempt.exists_of_mapM_eq_ok h e he
    rw [e.settled_eq_find, hr] at hfound
    cases hfound

/-- A composite accepts just where all its entries are accepted, and is built from their answers. -/
theorem collect_eq_ok_iff (hcalm : ∀ e ∈ entries, e.IsCalm) {v : Value} :
    (c.collect entries).outcome = .ok v ↔
      ∃ answers, List.Forall₂ Entry.Accepts entries answers ∧ v = c.build answers := by
  rw [collect_outcome hcalm, Attempt.bind_eq_ok]
  constructor
  · rintro ⟨_, -, h⟩
    obtain ⟨findings, hfindings, hv⟩ := Attempt.bind_eq_ok.1 h
    obtain ⟨hnone, rfl⟩ := conclude_eq_ok hv
    exact ⟨answers findings, accepts_of_no_failures hfindings hnone, rfl⟩
  · rintro ⟨answers, hanswers, rfl⟩
    have hsettled := settled_of_accepts hanswers
    obtain ⟨findings, hfind⟩ := find_of_settled hsettled
    exact ⟨findings, hfind, by rw [hsettled, Attempt.ok_bind, conclude_accepted]⟩

end Composite

/-! ## Records -/

namespace Fields

variable {mode : Mode} {validators : List (Value × Program)}

/-- The answers for keys and items that are gone through: by the program of the key if there is one,
else as the mode has it. -/
inductive Answered (mode : Mode) (validators : List (Value × Program)) :
    List (Value × Value) → List (Value × Value) → Prop
  | nil : Answered mode validators [] []
  | judged {key item v : Value} {p : Program} {rest answers : List (Value × Value)} :
      programFor? validators key = some p → (p [item]).judgement = .ok v →
        Answered mode validators rest answers →
          Answered mode validators ((key, item) :: rest) ((key, v) :: answers)
  | kept {key item : Value} {rest answers : List (Value × Value)} :
      programFor? validators key = none → mode = .all → Answered mode validators rest answers →
        Answered mode validators ((key, item) :: rest) ((key, item) :: answers)
  | dropped {key item : Value} {rest answers : List (Value × Value)} :
      programFor? validators key = none → mode.dropsMissing = true →
        Answered mode validators rest answers →
          Answered mode validators ((key, item) :: rest) answers

theorem answered_iff : ∀ {working answers : List (Value × Value)},
    List.Forall₂ Entry.Accepts
      (working.filterMap fun (key, item) => entry? mode validators key item) answers ↔
      Answered mode validators working answers := by
  intro working answers
  constructor
  · induction working generalizing answers with
    | nil =>
      intro h
      cases h
      exact .nil
    | cons e rest ih =>
      obtain ⟨key, item⟩ := e
      intro h
      rw [List.filterMap_cons] at h
      unfold entry? at h
      cases hp : programFor? validators key with
      | some p =>
        simp only [hp] at h
        obtain ⟨⟨_, v⟩, answers, haccepts, hrest, rfl⟩ := List.forall₂_cons_left_iff.1 h
        obtain ⟨rfl, hv⟩ := Entry.judged_accepts.1 haccepts
        exact .judged hp hv (ih hrest)
      | none =>
        simp only [hp] at h
        cases mode with
        | strict =>
          obtain ⟨_, _, haccepts, -, -⟩ := List.forall₂_cons_left_iff.1 h
          exact absurd haccepts Entry.not_refused_accepts
        | all =>
          obtain ⟨_, _, haccepts, hrest, rfl⟩ := List.forall₂_cons_left_iff.1 h
          cases Entry.kept_accepts.1 haccepts
          exact .kept hp rfl (ih hrest)
        | defined => exact .dropped hp rfl (ih h)
        | given => exact .dropped hp rfl (ih h)
  · intro h
    induction h with
    | nil => exact .nil
    | judged hp hv _ ih =>
      simp only [List.filterMap_cons, entry?, hp]
      exact .cons (Entry.judged_accepts.2 ⟨rfl, hv⟩) ih
    | kept hp hmode _ ih =>
      subst hmode
      simp only [List.filterMap_cons, entry?, hp]
      exact .cons (Entry.kept_accepts.2 rfl) ih
    | dropped hp hmode _ ih =>
      simp only [List.filterMap_cons, entry?, hp]
      cases mode with
      | strict | all => cases hmode
      | defined | given => exact ih

/-- Keys that are gone through one after the other are answered one after the other. -/
theorem Answered.append : ∀ {before behind answers : List (Value × Value)},
    Answered mode validators (before ++ behind) answers →
      ∃ first second, Answered mode validators before first ∧
        Answered mode validators behind second ∧ answers = first ++ second
  | [], behind, answers, h => ⟨[], answers, .nil, h, rfl⟩
  | (key, item) :: rest, behind, answers, h => by
    cases h with
    | judged hp hv h =>
      obtain ⟨first, second, hfirst, hsecond, rfl⟩ := Answered.append h
      exact ⟨_ :: first, second, .judged hp hv hfirst, hsecond, rfl⟩
    | kept hp hmode h =>
      obtain ⟨first, second, hfirst, hsecond, rfl⟩ := Answered.append h
      exact ⟨_ :: first, second, .kept hp hmode hfirst, hsecond, rfl⟩
    | dropped hp hmode h =>
      obtain ⟨first, second, hfirst, hsecond, rfl⟩ := Answered.append h
      exact ⟨first, second, .dropped hp hmode hfirst, hsecond, rfl⟩

/-- The answers stand in the order of the keys. -/
theorem Answered.keys_sublist {working answers : List (Value × Value)}
    (h : Answered mode validators working answers) :
    (answers.map (·.1)).Sublist (working.map (·.1)) := by
  induction h with
  | nil => exact .slnil
  | judged _ _ _ ih | kept _ _ _ ih => exact ih.cons_cons _
  | dropped _ _ _ ih => exact ih.cons _

/-- A key with a program is answered by it. -/
theorem Answered.judged_of_mem {working answers : List (Value × Value)}
    (h : Answered mode validators working answers) {key item : Value} (hmem : (key, item) ∈ working)
    {p : Program} (hp : programFor? validators key = some p) :
    ∃ v, (p [item]).judgement = .ok v ∧ (key, v) ∈ answers := by
  induction h with
  | nil => cases hmem
  | judged hp' hv _ ih =>
    rcases List.mem_cons.1 hmem with heq | hmem
    · cases heq
      cases hp.symm.trans hp'
      exact ⟨_, hv, List.mem_cons_self⟩
    · obtain ⟨v, hv, hanswer⟩ := ih hmem
      exact ⟨v, hv, List.mem_cons_of_mem _ hanswer⟩
  | kept hp' _ _ ih =>
    rcases List.mem_cons.1 hmem with heq | hmem
    · cases heq
      cases hp.symm.trans hp'
    · obtain ⟨v, hv, hanswer⟩ := ih hmem
      exact ⟨v, hv, List.mem_cons_of_mem _ hanswer⟩
  | dropped hp' _ _ ih =>
    rcases List.mem_cons.1 hmem with heq | hmem
    · cases heq
      cases hp.symm.trans hp'
    · exact ih hmem

end Fields

namespace Program

variable {v u : Value}

/-- A record accepts maps of which each key is accepted, and then answers a map of the answers. -/
theorem fields_eq_ok_iff {mode : Mode} {message : Value} {validators : List (Value × Program)}
    (h : Fields.AreCalm validators) :
    (Program.fields mode message validators [v]).outcome = .ok u ↔ ∃ input answers,
      v.entries? = some input ∧ Fields.Answered mode validators
        (Fields.working mode (validators.map (·.1)) input) answers ∧
        u = Fields.build mode answers := by
  unfold Program.fields
  simp only [firstArgument, List.headD_cons]
  cases hinput : v.entries? with
  | none => simp
  | some input =>
    simp only [Composite.collect_eq_ok_iff (Fields.entries_areCalm h _), Fields.answered_iff,
      Option.some.injEq, existsAndEq, true_and]

/-- The items of a list are accepted one by one. -/
theorem items_answered {element : Program} : ∀ {items : List (Nat × Value)} {values : List Value},
    (∃ answers, List.Forall₂ Entry.Accepts
      (items.map fun e => .judged (.int e.1) e.2 element) answers ∧
        values = answers.map (·.2)) ↔
      List.Forall₂ (fun item answer => (element [item]).judgement = .ok answer)
        (items.map (·.2)) values
  | [], values => by
    constructor
    · rintro ⟨answers, h, rfl⟩
      cases h
      exact .nil
    · intro h
      cases h
      exact ⟨[], .nil, rfl⟩
  | (i, item) :: rest, values => by
    constructor
    · rintro ⟨answers, h, rfl⟩
      obtain ⟨answer, more, haccepts, hrest, rfl⟩ := List.forall₂_cons_left_iff.1 h
      exact .cons (Entry.judged_accepts.1 haccepts).2 (items_answered.1 ⟨more, hrest, rfl⟩)
    · intro h
      obtain ⟨value, more, hvalue, hrest, rfl⟩ := List.forall₂_cons_left_iff.1 h
      obtain ⟨answers, hanswers, rfl⟩ := items_answered.2 hrest
      exact ⟨(.int i, value) :: answers, .cons (Entry.judged_accepts.2 ⟨rfl, hvalue⟩) hanswers, rfl⟩

/-- A list accepts where each item is accepted, and then answers a list of the answers. -/
theorem elements_eq_ok_iff {message : Value} {element : Program} (h : element.IsCalm) :
    (Program.elements message element [v]).outcome = .ok u ↔ ∃ items answers,
      v.iterate = .ok items ∧
        List.Forall₂ (fun item answer => (element [item]).judgement = .ok answer) items answers ∧
        u = .list answers := by
  unfold Program.elements
  simp only [firstArgument, List.headD_cons]
  cases hitems : v.iterate with
  | error e => simp
  | ok items =>
    have hsecond : ((List.range items.length).zip items).map (·.2) = items :=
      List.map_snd_zip (by simp)
    refine (Composite.collect_eq_ok_iff (items_areCalm h _)).trans ?_
    simp only [Except.ok.injEq, existsAndEq, true_and]
    constructor
    · rintro ⟨answers, hanswers, rfl⟩
      have hvalues := items_answered.1 ⟨answers, hanswers, rfl⟩
      rw [hsecond] at hvalues
      exact ⟨_, hvalues, rfl⟩
    · rintro ⟨values, hvalues, rfl⟩
      rw [← hsecond] at hvalues
      obtain ⟨answers, hanswers, rfl⟩ := items_answered.2 hvalues
      exact ⟨answers, hanswers, rfl⟩

end Program

end Attest
