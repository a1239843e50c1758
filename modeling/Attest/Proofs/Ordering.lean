import Attest.Proofs.Compiled

/-!
# Modes in order

How the outcomes of one schema in the four modes compare, on the same input. What is accepted
strictly is accepted with unknown keys kept, and comes to the same; keeping unknown keys or dropping
them is no matter to what fails; and what is accepted with absent keys judged is accepted without
that.

* `Compiles.strict_all`, `Compiles.all_defined`, `Compiles.defined_given`: the three comparisons, by
  induction on what a schema compiles to.
* `compile_ordered`: all of them, for any schema that compiles.
-/

namespace Attest

/-! ## Trouble -/

/-- What is raised, whatever the answer may be. -/
def trouble (x : Except Raised Value) : Except Raised Unit := x.map fun _ => ()

theorem trouble_ok {x : Except Raised Value} : trouble x = .ok () ↔ ∃ a, x = .ok a := by
  cases x <;> simp [trouble, Except.map]

theorem trouble_error {x : Except Raised Value} {r : Raised} :
    trouble x = .error r ↔ x = .error r := by
  cases x <;> simp [trouble, Except.map]

theorem trouble_mapError (f : Raised → Raised) (x : Except Raised Value) :
    trouble (x.mapError f) = (trouble x).mapError f := by
  cases x <;> rfl

theorem trouble_bind {x : Except Raised Value} {f g : Value → Except Raised Value}
    (h : ∀ a, trouble (f a) = trouble (g a)) : trouble (x >>= f) = trouble (x >>= g) := by
  cases x with
  | ok a => exact h a
  | error r => rfl

/-- Two calls raise the same, at once or later alike, and a composite takes both for the same
trouble. -/
structure Call.RaisesAlike (c d : Call Value) : Prop where
  outcome : trouble c.outcome = trouble d.outcome
  judgement : trouble c.judgement = trouble d.judgement
  promised : c.isPromised = d.isPromised

theorem Call.RaisesAlike.refl (c : Call Value) : c.RaisesAlike c := ⟨rfl, rfl, rfl⟩

/-- Where no object of an exception is answered, a composite takes the outcome as it is. -/
theorem Call.RaisesAlike.of_genuine {c d : Call Value}
    (houtcome : trouble c.outcome = trouble d.outcome) (hpromised : c.isPromised = d.isPromised)
    (hc : ∀ v, c.outcome = .ok v → v.trouble? = none)
    (hd : ∀ v, d.outcome = .ok v → v.trouble? = none) : c.RaisesAlike d where
  outcome := houtcome
  judgement := by rw [judgement_of_no_trouble hc, judgement_of_no_trouble hd, houtcome]
  promised := hpromised

namespace Entry

/-- What is gathered from what entries come to, one after the other. -/
def gathered {α : Type} (run : Entry → Except Raised (Value × Finding))
    (gather : List (Value × Finding) → α) (entries : List Entry) : Except Raised α :=
  (entries.mapM run).map gather

section
variable {α β : Type} {run : Entry → Except Raised (Value × Finding)}
    {gather : List (Value × Finding) → α}
  {op : α → α → α} (happend : ∀ xs ys, gather (xs ++ ys) = op (gather xs) (gather ys))
include happend

theorem gathered_append (entries entries' : List Entry) :
    gathered run gather (entries ++ entries') =
    gathered run gather entries >>= fun a => (gathered run gather entries').map (op a) := by
  unfold gathered
  rw [List.mapM_append]
  cases entries.mapM run with
  | error r => rfl
  | ok found =>
    cases entries'.mapM run with
    | error r => rfl
    | ok findings => exact congrArg Except.ok (happend found findings)

theorem gathered_filterMap_congr {f g : β → Option Entry} : ∀ {xs : List β},
    (∀ x ∈ xs, gathered run gather (f x).toList = gathered run gather (g x).toList) →
      gathered run gather (xs.filterMap f) = gathered run gather (xs.filterMap g)
  | [], _ => rfl
  | x :: rest, h => by
    have hcons (f : β → Option Entry) : (x :: rest).filterMap f = (f x).toList ++
      rest.filterMap f := by
      rw [List.filterMap_cons]
      cases f x <;> rfl
    rw [hcons f, hcons g, gathered_append happend, gathered_append happend, h x List.mem_cons_self,
      gathered_filterMap_congr fun y hy => h y (List.mem_cons_of_mem x hy)]

end

/-- Whether some entry has promised its judgement, unless something is raised before. -/
def promising : List Entry → Except Raised Bool :=
  gathered (fun e => e.find.outcome) fun findings => findings.any fun (_, f) => f.promise?.isSome

/-- The failures that entries come to, in their order. -/
def failing : List Entry → Except Raised (List (Value × Failure)) :=
  gathered settled Composite.failures

/-- Entries that fail in the same way, at once or later alike. -/
structure FailAlike (entries entries' : List Entry) : Prop where
  promising : promising entries = promising entries'
  failing : failing entries = failing entries'

theorem FailAlike.filterMap {α : Type} {f g : α → Option Entry} {xs : List α}
    (h : ∀ x ∈ xs, FailAlike (f x).toList (g x).toList) :
    FailAlike (xs.filterMap f) (xs.filterMap g) where
  promising := gathered_filterMap_congr (fun _ _ => List.any_append) fun x hx => (h x hx).promising
  failing :=
    gathered_filterMap_congr (fun _ _ => List.filterMap_append) fun x hx => (h x hx).failing

variable {segment item : Value} {p q : Program}

theorem promising_judged (segment item : Value) (p : Program) : promising [.judged segment item p] =
    match (p [item]).isPromised, trouble (p [item]).outcome with
    | true, _ => .ok true
    | false, .ok () => .ok false
    | false, .error r => (Finding.ofRaised item r).map fun _ => false := by
  simp only [promising, gathered, List.mapM_cons, List.mapM_nil, find,
    Call.isPromised, Call.outcome]
  cases (p [item]).answer with
  | returned v => rfl
  | promised handles p => rfl
  | raised r =>
    simp only [trouble, Except.map]
    cases hr : Finding.ofRaised item r with
    | error r' => rfl
    | ok f =>
      cases f with
      | accepted v => rfl
      | rejected f => rfl
      | awaited v handles p => exact absurd hr Finding.ofRaised_ne_awaited

theorem failing_judged (segment item : Value) (p : Program) : failing [.judged segment item p] =
    match trouble (p [item]).judgement with
    | .ok () => .ok []
    | .error r => (Finding.ofRaised item r).map fun f => Composite.failures [(segment, f)] := by
  simp only [failing, gathered, List.mapM_cons, List.mapM_nil, settled]
  cases (p [item]).judgement with
  | ok v => rfl
  | error r =>
    simp only [trouble, Except.map]
    cases Finding.ofRaised item r <;> rfl

/-- Programs that raise the same about an item let it fail in the same way. -/
theorem FailAlike.judged (h : (p [item]).RaisesAlike (q [item])) :
    FailAlike [.judged segment item p] [.judged segment item q] where
  promising := by rw [promising_judged, promising_judged, h.promised, h.outcome]
  failing := by rw [failing_judged, failing_judged, h.judgement]

end Entry

namespace Composite

variable {entries entries' : List Entry}

/-- What a composite raises is decided by the failures of its entries, unless an entry ends it
before. -/
theorem trouble_collect (c : Composite) (hcalm : ∀ e ∈ entries, e.IsCalm) :
    trouble (c.collect entries).outcome = Entry.promising entries >>= fun _ =>
      Entry.failing entries >>= fun parts =>
        match parts with
        | [] => .ok ()
        | parts =>
          match withParts c.failure parts with
          | .error e => .error (.fault e)
          | .ok f => .error (.failure f) := by
  rw [collect_outcome hcalm]
  unfold Entry.promising Entry.failing Entry.gathered
  cases entries.mapM fun e => e.find.outcome with
  | error r => rfl
  | ok found =>
    cases entries.mapM Entry.settled with
    | error r => rfl
    | ok findings =>
      show trouble (c.conclude findings).2 = _
      unfold conclude
      simp only [Except.map, Attempt.ok_bind]
      cases failures findings with
      | nil => rfl
      | cons part rest =>
        simp only
        cases withParts c.failure (part :: rest) <;> rfl

/-- A composite is promised if an entry is, unless an entry ends it before. -/
theorem isPromised_collect (c : Composite) (entries : List Entry) :
    (c.collect entries).isPromised =
      match Entry.promising entries with
      | .ok promised => promised
      | .error _ => false := by
  unfold collect Entry.promising Entry.gathered
  rw [Call.isPromised_next, Entry.findAll_isPromised, Call.settle_snd,
    Entry.findAll_outcome, Bool.false_or]
  cases entries.mapM fun e => e.find.outcome with
  | error r => rfl
  | ok findings =>
    simp only [Except.map]
    cases findings.any fun (_, f) => f.promise?.isSome with
    | true => rfl
    | false => exact Call.isPromised_ofExcept _

/-- Composites whose entries fail in the same way raise the same. -/
theorem collect_raisesAlike {c c' : Composite} (hfailure : c.failure = c'.failure)
    (hc : ∀ answers, (c.build answers).trouble? = none)
    (hc' : ∀ answers, (c'.build answers).trouble? = none) (hcalm : ∀ e ∈ entries, e.IsCalm)
    (hcalm' : ∀ e ∈ entries', e.IsCalm) (h : Entry.FailAlike entries entries') :
    (c.collect entries).RaisesAlike (c'.collect entries') := by
  refine .of_genuine ?_ ?_ (fun v hv => ?_) fun v hv => ?_
  · rw [trouble_collect c hcalm, trouble_collect c' hcalm', h.promising, h.failing, hfailure]
  · rw [isPromised_collect, isPromised_collect, h.promising]
  · obtain ⟨answers, -, rfl⟩ := (collect_eq_ok_iff hcalm).1 hv
    exact hc answers
  · obtain ⟨answers, -, rfl⟩ := (collect_eq_ok_iff hcalm').1 hv
    exact hc' answers

end Composite

namespace Schema

/-! ## One mode and all of them -/

/-- Either a validator is the same in all modes, or it never answers the object of an exception. -/
theorem Compiles.constant_or_genuine {w : World} (hw : w.NeverCancels) {schema : Value}
    {validator : Mode → Validator} (h : Compiles schema validator) :
    (∀ mode mode', validator mode = validator mode') ∨
      ∀ mode v a, comes w validator mode v = .ok a → a.trouble? = none := by
  cases h with
  | leaf | array => exact .inl fun _ _ => rfl
  | elements message =>
    refine .inr fun mode v a ha => ?_
    obtain ⟨items, answers, -, -, rfl⟩ := (comes_elements_ok hw).1 ha
    rfl
  | fields message =>
    refine .inr fun mode v a ha => ?_
    obtain ⟨input, answers, -, -, rfl⟩ := (comes_fields_ok hw).1 ha
    rfl

/-- What holds of what a validator comes to in the modes holds of what a composite makes of that, if
it holds of the same thing in all modes. -/
theorem Compiles.judged {w : World} (hw : w.NeverCancels) {schema : Value}
    {validator : Mode → Validator} (h : Compiles schema validator)
    {P : (Mode → Value → Except Raised Value) → Prop} (hsame : ∀ run, P fun _ => run)
    (hcomes : P (comes w validator)) : P (judges w validator) := by
  rcases h.constant_or_genuine hw with hconstant | hgenuine
  · have hjudges : judges w validator = fun _ => judges w validator .strict := by
      funext mode v
      rw [judges, judges, hconstant mode .strict]
    rw [hjudges]
    exact hsame _
  · have hjudges : judges w validator = comes w validator :=
      funext fun mode => judges_eq_comes fun {v a} => hgenuine mode v a
    rwa [hjudges]

/-! ## Strictly, and with unknown keys kept -/

/-- What is accepted strictly is accepted with unknown keys kept, and comes to the same. -/
def Loosens (run : Mode → Value → Except Raised Value) : Prop :=
  ∀ v a, run .strict v = .ok a → run .all v = .ok a

section
variable {w : World} {members : List Member}

theorem answered_strict_all (h : ∀ m ∈ members, Loosens (judges w m.validator))
    {working answers : List (Value × Value)}
    (ha : Fields.Answered .strict (programs w .strict members) working answers) :
    Fields.Answered .all (programs w .all members) working answers := by
  induction ha with
  | nil => exact .nil
  | @judged key item v p rest answers hp hv _ ih =>
    obtain ⟨m, hm, rfl, hall⟩ := programFor?_some hp
    exact .judged (hall .all) (h m hm item v hv) ih
  | kept _ hmode => cases hmode
  | dropped _ hmode => cases hmode

end

theorem Compiles.strict_all {w : World} (hw : w.NeverCancels) {schema : Value}
    {validator : Mode → Validator} (h : Compiles schema validator) :
    Loosens (comes w validator) := by
  have hjudged {schema : Value} {validator : Mode → Validator} (h : Compiles schema validator)
      (hcomes : Loosens (comes w validator)) : Loosens (judges w validator) :=
    h.judged hw (fun _ _ _ ha => ha) hcomes
  induction h with
  | leaf | array => exact fun _ _ ha => ha
  | elements message hv helement ih =>
    intro v a ha
    obtain ⟨items, answers, hitems, hanswers, rfl⟩ := (comes_elements_ok hw).1 ha
    exact (comes_elements_ok hw).2
      ⟨items, answers, hitems, hanswers.imp fun item answer => hjudged helement ih item answer, rfl⟩
  | fields message hmembers ih =>
    intro v a ha
    obtain ⟨input, answers, hinput, hanswers, rfl⟩ := (comes_fields_ok hw).1 ha
    have hall := answered_strict_all (fun m hm => hjudged (hmembers m hm) (ih m hm)) hanswers
    exact (comes_fields_ok hw).2 ⟨input, answers, hinput, hall, rfl⟩

/-! ## With unknown keys kept, and without them -/

section
variable {w : World} {members : List Member}

theorem elements_raisesAlike (message list : Value) {p q : Program} (hp : p.IsCalm) (hq : q.IsCalm)
    (h : ∀ item, (p [item]).RaisesAlike (q [item])) :
    ((Program.elements message p) [list]).RaisesAlike ((Program.elements message q) [list]) := by
  unfold Program.elements
  simp only [firstArgument, List.headD_cons]
  cases list.iterate with
  | error e => exact .refl _
  | ok items =>
    refine Composite.collect_raisesAlike rfl (fun _ => rfl) (fun _ => rfl)
      (Program.items_areCalm hp _)
      (Program.items_areCalm hq _) ?_
    rw [← List.filterMap_eq_map, ← List.filterMap_eq_map]
    exact .filterMap fun e _ => .judged (h e.2)

/-- The validator of a list promises what its items promise, once the value is a list. -/
theorem elements_isPromised (w : World) (message v : Value)
    (element : Mode → Validator) (mode : Mode) :
    ((listOf message element mode).step.program w [v]).isPromised =
      match Kind.array.coerce .null v with
      | .ok list => ((Program.elements message ((element mode).step.program w)) [list]).isPromised
      | .error _ => false := by
  simp only [listOf, Validator.andThen, Validator.create, Step.program, Program.andThen_eq,
    Call.isPromised_next, Program.guarded_eq, Call.isPromised_mapRaised, Call.settle_snd,
    firstArgument, List.headD_cons]
  cases Kind.array.coerce .null v <;> rfl

/-- Whether an unknown key is kept or dropped, nothing fails of it. -/
theorem failAlike_all_defined {key item : Value}
    (h : ∀ m ∈ members, ∀ v, ((m.validator .all).step.program w [v]).RaisesAlike
      ((m.validator .defined).step.program w [v])) :
    Entry.FailAlike (Fields.entry? .all (programs w .all members) key item).toList
      (Fields.entry? .defined (programs w .defined members) key item).toList := by
  unfold Fields.entry?
  -- An unknown key makes an answer in one mode and no entry in the other: no failure in either.
  simp only [programFor?_programs]
  cases hm : members.find? fun m => m.key.same key with
  | none => exact ⟨rfl, rfl⟩
  | some m => exact .judged (h m (List.mem_of_find?_eq_some hm) item)

end

theorem Compiles.all_defined {w : World} (hw : w.NeverCancels) {schema : Value}
    {validator : Mode → Validator} (h : Compiles schema validator) : ∀ v,
      ((validator .all).step.program w [v]).RaisesAlike
        ((validator .defined).step.program w [v]) := by
  induction h with
  | leaf | array => exact fun _ => .refl _
  | @elements message _ _ element _ helement ih =>
    intro v
    have hlists (list : Value) := elements_raisesAlike message list
      (Step.program_isCalm hw (element .all).step)
        (Step.program_isCalm hw (element .defined).step) ih
    refine .of_genuine ?_ ?_ (fun a ha => ?_) fun a ha => ?_
    · show trouble (comes w (listOf message element) .all v) =
        trouble (comes w (listOf message element) .defined v)
      rw [comes_elements, comes_elements]
      refine trouble_bind fun list => ?_
      rw [trouble_mapError, trouble_mapError, (hlists list).outcome]
    · rw [elements_isPromised, elements_isPromised]
      cases Kind.array.coerce .null v with
      | ok list => exact (hlists list).promised
      | error r => rfl
    · obtain ⟨items, answers, -, -, rfl⟩ := (comes_elements_ok hw).1 ha
      rfl
    · obtain ⟨items, answers, -, -, rfl⟩ := (comes_elements_ok hw).1 ha
      rfl
  | @fields message members hmembers ih =>
    intro v
    show ((Program.fields .all message (programs w .all members)) [v]).RaisesAlike
      ((Program.fields .defined message (programs w .defined members)) [v])
    unfold Program.fields
    simp only [firstArgument, List.headD_cons]
    cases v.entries? with
    | none => exact .refl _
    | some input =>
      simp only [programs_keys]
      exact Composite.collect_raisesAlike rfl (fun _ => rfl) (fun _ => rfl)
        (Fields.entries_areCalm (programs_areCalm hw _ _) _)
        (Fields.entries_areCalm (programs_areCalm hw _ _) _)
        (.filterMap fun _ _ => failAlike_all_defined ih)

/-! ## With absent keys judged, and without that -/

/-- What is accepted with absent keys judged is accepted without that. Then both answers stay
missing, or neither does. -/
def Relaxes (run : Mode → Value → Except Raised Value) : Prop :=
  ∀ v a, run .defined v = .ok a → ∃ b, run .given v = .ok b ∧ a.isMissing = b.isMissing

/-- The entries of two records. The keys of the second are present in the input, in its order; the
keys that the first has on top are not. -/
def HasOnTop (input shown given : List (Value × Value)) : Prop :=
  ∃ absent, shown.map (·.1) = given.map (·.1) ++ absent ∧
    (given.map (·.1)).Sublist (input.map (·.1)) ∧ ∀ key ∈ absent, Value.hasKey key input = false

section
variable {w : World} {members : List Member} {mode : Mode}

/-- The entries of a record that leaves out what stays missing. -/
theorem build_of_drops (hmode : mode.dropsMissing = true) (answers : List (Value × Value)) :
    Fields.build mode answers = .map (answers.filter fun e => !e.2.isMissing) := by
  unfold Fields.build
  rw [← List.filterMap_eq_filter]
  congr 2
  funext ⟨key, v⟩
  cases hv : v.isMissing <;> simp [hmode, hv, Option.guard]

theorem filter_missing {answers answers' : List (Value × Value)}
    (h : List.Forall₂ (fun a b => a.1 = b.1 ∧ a.2.isMissing = b.2.isMissing) answers answers') :
    (answers.filter fun e => !e.2.isMissing).map (·.1) =
      (answers'.filter fun e => !e.2.isMissing).map (·.1) := by
  induction h with
  | nil => rfl
  | @cons a b _ _ hab _ ih =>
    obtain ⟨hkey, hmissing⟩ := hab
    rw [List.filter_cons, List.filter_cons, ← hmissing]
    split
    · rw [List.map_cons, List.map_cons, hkey, ih]
    · exact ih

theorem answered_defined_given (h : ∀ m ∈ members, Relaxes (judges w m.validator))
    {working answers : List (Value × Value)}
    (ha : Fields.Answered .defined (programs w .defined members) working answers) :
    ∃ answers', Fields.Answered .given (programs w .given members) working answers' ∧
      List.Forall₂ (fun a b => a.1 = b.1 ∧ a.2.isMissing = b.2.isMissing) answers answers' := by
  induction ha with
  | nil => exact ⟨[], .nil, .nil⟩
  | @judged key item a p rest answers hp hv _ ih =>
    obtain ⟨m, hm, rfl, hall⟩ := programFor?_some hp
    obtain ⟨b, hb, hmissing⟩ := h m hm item a hv
    obtain ⟨answers', hanswers, hsame⟩ := ih
    exact ⟨(key, b) :: answers', .judged (hall .given) hb hanswers, .cons ⟨rfl, hmissing⟩ hsame⟩
  | kept _ hmode => cases hmode
  | @dropped key item rest answers hp _ _ ih =>
    obtain ⟨answers', hanswers, hsame⟩ := ih
    exact ⟨answers', .dropped (programFor?_none hp .given) rfl hanswers, hsame⟩

theorem items_defined_given {element : Mode → Validator} (h : Relaxes (judges w element))
    {items answers : List Value} (ha : List.Forall₂
      (fun item answer => judges w element .defined item = .ok answer) items answers) :
    ∃ answers',
      List.Forall₂ (fun item answer => judges w element .given item = .ok answer)
        items answers' := by
  induction ha with
  | nil => exact ⟨[], .nil⟩
  | cons ha _ ih =>
    obtain ⟨b, hb, -⟩ := h _ _ ha
    obtain ⟨answers', hrest⟩ := ih
    exact ⟨b :: answers', .cons hb hrest⟩

theorem fields_defined_given (hw : w.NeverCancels)
    (h : ∀ m ∈ members, Relaxes (judges w m.validator)) {message v a : Value}
    (ha : comes w (recordOf message members) .defined v = .ok a) :
    ∃ input shown given, v.entries? = some input ∧ a = .map shown ∧
      comes w (recordOf message members) .given v = .ok (.map given) ∧
      HasOnTop input shown given := by
  obtain ⟨input, answers, hinput, hanswers, rfl⟩ := (comes_fields_ok hw).1 ha
  -- The keys of the input are gone through first: without the absent ones, they are all.
  obtain ⟨present, absent, hpresent, habsent, rfl⟩ := hanswers.append
  obtain ⟨answers', hgiven, hall⟩ := answered_defined_given h hpresent
  refine ⟨input, _, _, hinput, build_of_drops rfl _,
    (comes_fields_ok hw).2 ⟨input, answers', hinput, hgiven, (build_of_drops rfl _).symm⟩,
    (absent.filter fun e => !e.2.isMissing).map (·.1), ?_, ?_, ?_⟩
  · rw [List.filter_append, List.map_append, filter_missing hall]
  · exact (List.filter_sublist.map _).trans (hgiven.keys_sublist)
  · intro key hkey
    have hmem := ((List.filter_sublist.map _).trans (habsent.keys_sublist)).subset hkey
    simp only [List.map_map, List.mem_map, List.mem_filter, Function.comp_apply,
      exists_eq_right] at hmem
    simpa using hmem.2

end

theorem Compiles.relaxes_judged {w : World} (hw : w.NeverCancels) {schema : Value}
    {validator : Mode → Validator} (h : Compiles schema validator)
    (hcomes : Relaxes (comes w validator)) : Relaxes (judges w validator) :=
  h.judged hw (fun _ _ a ha => ⟨a, ha, rfl⟩) hcomes

theorem Compiles.defined_given {w : World} (hw : w.NeverCancels) {schema : Value}
    {validator : Mode → Validator} (h : Compiles schema validator) :
    Relaxes (comes w validator) := by
  induction h with
  | leaf | array => exact fun _ a ha => ⟨a, ha, rfl⟩
  | elements message hv helement ih =>
    intro v a ha
    obtain ⟨items, answers, hitems, hanswers, rfl⟩ := (comes_elements_ok hw).1 ha
    obtain ⟨answers', hgiven⟩ := items_defined_given (helement.relaxes_judged hw ih) hanswers
    exact ⟨.list answers', (comes_elements_ok hw).2 ⟨items, answers', hitems, hgiven, rfl⟩, rfl⟩
  | fields message hmembers ih =>
    intro v a ha
    obtain ⟨input, shown, given, -, rfl, hgiven, -⟩ :=
      fields_defined_given hw (fun m hm => (hmembers m hm).relaxes_judged hw (ih m hm)) ha
    exact ⟨.map given, hgiven, rfl⟩

/-! ## In order -/

/-- The outcomes of a schema in the four modes, on one input, in order. -/
structure Ordered (outcome : Mode → Except Raised Value) : Prop where
  strict_all : ∀ v, outcome .strict = .ok v → outcome .all = .ok v
  accepts_iff : (∃ v, outcome .all = .ok v) ↔ ∃ v, outcome .defined = .ok v
  raises_iff : ∀ r, outcome .all = .error r ↔ outcome .defined = .error r
  defined_given : (∃ v, outcome .defined = .ok v) → ∃ v, outcome .given = .ok v

theorem Ordered.mapError {outcome : Mode → Except Raised Value} (h : Ordered outcome)
    (f : Raised → Raised) : Ordered fun mode => (outcome mode).mapError f where
  strict_all v := by simpa only [Attempt.mapError_eq_ok] using h.strict_all v
  accepts_iff := by simpa only [Attempt.mapError_eq_ok] using h.accepts_iff
  raises_iff r := by
    cases hall : outcome .all with
    | ok v =>
      obtain ⟨a, ha⟩ := h.accepts_iff.1 ⟨v, hall⟩
      rw [ha]
      simp [Except.mapError]
    | error r' => rw [(h.raises_iff r').1 hall]
  defined_given := by simpa only [Attempt.mapError_eq_ok] using h.defined_given

theorem Compiles.ordered {w : World} (hw : w.NeverCancels) {schema : Value}
    {validator : Mode → Validator} (h : Compiles schema validator) (v : Value) :
    Ordered fun mode => comes w validator mode v where
  strict_all a := h.strict_all hw v a
  accepts_iff := by
    have htrouble : trouble (comes w validator .all v) = trouble (comes w validator .defined v) :=
      (h.all_defined hw v).outcome
    rw [← trouble_ok, ← trouble_ok, htrouble]
  raises_iff r := by
    have htrouble : trouble (comes w validator .all v) = trouble (comes w validator .defined v) :=
      (h.all_defined hw v).outcome
    rw [← trouble_error, ← trouble_error, htrouble]
  defined_given := by
    rintro ⟨a, ha⟩
    obtain ⟨b, hb, -⟩ := h.defined_given hw v a ha
    exact ⟨b, hb⟩

/-- The modes are in order for every schema and every input: what is accepted strictly comes to the
same with unknown keys kept; keeping them or dropping them is no matter to what is accepted and what
is raised; and what is accepted with absent keys judged is accepted without that. A record then has
the same keys, less those that are not in the input. -/
theorem compile_ordered {w : World} (hw : w.NeverCancels) (schema path message : Value)
    (settings : Settings) :
    Build.Alike (fun mode => compile schema (.mode mode) path message settings) fun u =>
      (∀ v, Ordered fun mode => ((u mode).call w [v]).settle.2) ∧
      ∀ nodes, schema = .map nodes → ∀ v a, ((u .defined).call w [v]).settle.2 = .ok a →
        ∃ input shown given, v.entries? = some input ∧ a = .map shown ∧
          ((u .given).call w [v]).settle.2 = .ok (.map given) ∧ HasOnTop input shown given := by
  refine (compile_alike schema path message settings).imp ?_
  rintro _ ⟨segments, validator, -, hvalidator, rfl⟩
  obtain ⟨f, hf⟩ := under_outcome w segments
  simp only [hf]
  refine ⟨fun v => (hvalidator.ordered hw v).mapError f, ?_⟩
  rintro nodes rfl v a ha
  have ha := Attempt.mapError_eq_ok.1 ha
  simp only [Attempt.mapError_eq_ok]
  generalize hschema : Value.map nodes = schema at hvalidator
  cases hvalidator with
  | leaf hleaf =>
    subst hschema
    cases hleaf
  | array hv => rcases hv with rfl | rfl <;> cases hschema
  | elements _ hv => rcases hv with rfl | rfl <;> cases hschema
  | @fields message' members hmembers =>
    have hrelaxes (m : Member) (hm : m ∈ members) : Relaxes (judges w m.validator) :=
      (hmembers m hm).relaxes_judged hw ((hmembers m hm).defined_given hw)
    exact fields_defined_given hw hrelaxes ha

/-- A record without the note that has a default, and with unknown keys, in it and in one of its
tags. -/
theorem compile_ordered_nested :
    let w := World.ofRoutines [⟨.identity, none, some 1⟩] (.ofDate ⟨2024, 1, 1⟩)
    let schema := Value.record [("label", .function ⟨0⟩),
      ("tags", .list [.record [("name", .type .text)]]),
      ("note", .validator .string (.optional (.coerce .string .null) (.value (.text "none"))) none)]
    let v := Value.record [("tags", .list [.record [("name", .text "a"), ("hue", .int 1)]]),
      ("label", .text "x"), ("size", .int 2)]
    w.NeverCancels ∧ ∃ u : Mode → Validator,
      (∀ mode, (compile schema (.mode mode) (.list []) .null Settings.default).Makes (u mode)) ∧
      (Ordered fun mode => ((u mode).call w [v]).settle.2) ∧
      (∀ mode, ((u mode).call w [v]).settle.2.toOption.isSome = (mode != .strict)) ∧
      ∃ input shown given, v.entries? = some input ∧
        ((u .defined).call w [v]).settle.2 = .ok (.map shown) ∧
        ((u .given).call w [v]).settle.2 = .ok (.map given) ∧ HasOnTop input shown given := by
  intro w schema v
  have hw : w.NeverCancels := World.ofRoutines_neverCancels (by simp)
  have hruns :
    ∀ mode, ((compile schema (.mode mode) (.list []) .null Settings.default []).1.toOption.map
      fun u => (u.call w [v]).settle.2.toOption.isSome) = some (mode != .strict) := by
    intro mode
    cases mode <;> decide +kernel
  refine ⟨hw, ?_⟩
  rcases compile_ordered hw schema (.list []) .null Settings.default with
    ⟨u, ⟨hordered, hkeys⟩, hmakes⟩ | ⟨r, hfails⟩
  · have haccepts : ∀ mode, ((u mode).call w [v]).settle.2.toOption.isSome = (mode != .strict) := by
      intro mode
      have h := hruns mode
      rw [hmakes mode []] at h
      exact Option.some.inj h
    obtain ⟨shown, hshown⟩ := Option.isSome_iff_exists.1 (haccepts .defined)
    have hshown := Attempt.toOption_eq_some.1 hshown
    obtain ⟨input, shown, given, hinput, rfl, hgiven, htop⟩ := hkeys _ rfl v shown hshown
    exact ⟨u, hmakes, hordered v, haccepts, input, shown, given, hinput, hshown, hgiven, htop⟩
  · have h := hruns .all
    rw [hfails .all []] at h
    cases h

end Schema

end Attest
