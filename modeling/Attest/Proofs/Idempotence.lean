import Attest.Proofs.Coercions
import Attest.Proofs.Compiled
import Attest.Proofs.Keys
import Attest.Proofs.Location

/-!
# Judged twice

What comes out of a schema that only coerces goes through it unchanged. Every kind takes its own
values as they are; a list takes its items one by one; and a record finds all its keys again in what
it has made, so that nothing is missing the second time.

* `IsCoercive`: schemas of samples, types that stand for samples, patterns, lists and maps.
* `Idempotent`: the four facts that go through the tree together.
* `compile_idempotent`: what is accepted is accepted again, and comes to itself.
-/

namespace Attest

/-- A value that came out goes through again, as it is. It has no reference to the outside, it is
not the object of an exception, and it did not come of nothing. -/
structure Idempotent (run : Value → Except Raised Value) : Prop where
  again : ∀ {v a}, run v = .ok a → run a = .ok a
  closed : ∀ {v a}, run v = .ok a → a.isClosed = true
  genuine : ∀ {v a}, run v = .ok a → a.trouble? = none
  refuses : ∀ {a}, run .missing ≠ .ok a

namespace Idempotent

variable {run : Value → Except Raised Value}

/-- What comes out is not missing. -/
theorem present (h : Idempotent run) {v a : Value} (ha : run v = .ok a) : a.isMissing = false := by
  cases a with
  | missing => exact absurd (h.again ha) h.refuses
  | _ => rfl

end Idempotent

/-! ## Kinds -/

namespace Kind

/-- A coercion to a kind is idempotent. -/
theorem coerce_idempotent {kind : Kind} (hany : kind ≠ .any) (message : Value) :
    Idempotent (kind.coerce message) := by
  have haccepts : ∀ {v a}, kind.coerce message v = .ok a → kind.accepts? v = .ok (some a) := by
    intro v a h
    unfold coerce at h
    split at h
    · next hv =>
      cases h
      exact hv
    · cases h
    · cases h
  refine ⟨fun h => ?_, fun h => (makes_of_accepts? hany (haccepts h)).isClosed,
    fun h => (makes_of_accepts? hany (haccepts h)).trouble?, fun h => ?_⟩
  · unfold coerce
    rw [(makes_of_accepts? hany (haccepts h)).accepts?]
  · have hmissing := Schema.accepts_missing hany
    unfold accepts at hmissing
    rw [haccepts h] at hmissing
    cases hmissing

end Kind

/-! ## Checks -/

section
variable {w : World} {c : Check} {message expected : Value} {comparison : String}

/-- A check answers its argument, if it answers. -/
theorem Check.program_ok {v a : Value}
    (h : ((Step.check c message expected comparison).program w [v]).outcome = .ok a) : a = v := by
  rw [Step.program, Program.satisfying_eq, Call.outcome_next] at h
  obtain ⟨verdict, -, h⟩ := Attempt.bind_eq_ok.1 h
  split at h
  · cases h
    rfl
  · cases h

theorem Step.andThen_ok {s t : Step} {v a : Value} :
    ((Step.andThen s t).program w [v]).outcome = .ok a ↔
    ∃ x, (s.program w [v]).outcome = .ok x ∧ (t.program w [x]).outcome = .ok a := by
  simp only [Step.program, Program.andThen_eq, Program.guarded_eq, Call.outcome_next,
    Call.outcome_mapRaised, Attempt.bind_eq_ok, Attempt.mapError_eq_ok]

/-- A further check keeps a step idempotent. -/
theorem Idempotent.check {s : Step} (h : Idempotent fun v => (s.program w [v]).outcome) :
    Idempotent fun v =>
      ((Step.andThen s (.check c message expected comparison)).program w [v]).outcome := by
  have hinto : ∀ {v a},
      ((Step.andThen s (.check c message expected comparison)).program w [v]).outcome = .ok a →
        (s.program w [v]).outcome = .ok a ∧
          ((Step.check c message expected comparison).program w [a]).outcome = .ok a := by
    intro v a ha
    obtain ⟨x, hx, hcheck⟩ := Step.andThen_ok.1 ha
    obtain rfl := Check.program_ok hcheck
    exact ⟨hx, hcheck⟩
  refine ⟨fun ha => ?_, fun ha => h.closed (hinto ha).1, fun ha => h.genuine (hinto ha).1,
    fun ha => h.refuses (hinto ha).1⟩
  obtain ⟨hv, hcheck⟩ := hinto ha
  exact Step.andThen_ok.2 ⟨_, h.again hv, hcheck⟩

end

namespace Schema

/-- Schemas that do nothing but coerce: samples, types that stand for samples, patterns, lists, and
maps of which the keys are anything that can be a key. -/
inductive IsCoercive : Value → Prop
  | leaf {schema : Value} : isLeaf schema = true → IsCoercive schema
  | list {nodes : List Value} : (∀ node ∈ nodes, IsCoercive node) → IsCoercive (.list nodes)
  | tuple {nodes : List Value} : (∀ node ∈ nodes, IsCoercive node) → IsCoercive (.tuple nodes)
  | map {fields : List (Value × Value)} : (∀ field ∈ fields, field.1.isKey = true) →
      (∀ field ∈ fields, IsCoercive field.2) → IsCoercive (.map fields)

/-! ## Leaves, lists and records -/

section
variable {w : World} {mode : Mode}

theorem coerce_comes_idempotent {kind : Kind} (hany : kind ≠ .any) :
    Idempotent (comes w (fun _ => ⟨kind, .coerce kind .null⟩) mode) := by
  have hcomes : comes w (fun _ => ⟨kind, .coerce kind .null⟩) mode = kind.coerce .null := by
    funext v
    simp only [comes, Step.program, Call.outcome_ofExcept, firstArgument, List.headD_cons]
  rw [hcomes]
  exact Kind.coerce_idempotent hany .null

theorem leaf_idempotent {schema : Value} {u : Validator} (h : isLeaf schema = true)
    (hu : compileLeaf schema = .ok u) : Idempotent (comes w (fun _ => u) mode) := by
  rcases isLeaf_cases h with ⟨p, rfl⟩ | ⟨kind, hkind⟩
  · cases hu
    have hstring : Idempotent (comes w (fun _ => ⟨.string, .coerce .string .null⟩) mode) :=
      coerce_comes_idempotent (by decide)
    exact hstring.check
  · rw [compileLeaf_of_kind hkind] at hu
    cases hu
    refine coerce_comes_idempotent fun hany => ?_
    rw [hany] at hkind
    exact leafKind?_ne_any schema hkind

/-- Every answer of a list is one to some item. -/
theorem exists_item {run : Value → Except Raised Value} {items answers : List Value}
    (h : List.Forall₂ (fun item answer => run item = .ok answer) items answers) :
    ∀ answer ∈ answers, ∃ item, run item = .ok answer := by
  induction h with
  | nil => exact nofun
  | @cons item answer _ _ hitem _ ih => exact List.forall_mem_cons.2 ⟨⟨item, hitem⟩, ih⟩

/-- What an idempotent validator comes to is taken for what it is. -/
theorem judges_of_idempotent {validator : Mode → Validator}
    (h : Idempotent (comes w validator mode)) :
    judges w validator mode = comes w validator mode := judges_eq_comes h.genuine

theorem elements_idempotent (hw : w.NeverCancels) (message : Value) {element : Mode → Validator}
    (h : Idempotent (comes w element mode)) :
    Idempotent (comes w (listOf message element) mode) := by
  have haccepts : ∀ {v u}, comes w (listOf message element) mode v = .ok u ↔
      ∃ items answers, v.sequence? = some items ∧
        List.Forall₂ (fun item answer => comes w element mode item = .ok answer) items answers ∧
        u = .list answers := by
    rw [← judges_of_idempotent h]
    exact comes_elements_ok hw
  have hclosed : ∀ {items answers : List Value},
      List.Forall₂ (fun item answer => comes w element mode item = .ok answer) items answers →
        ∀ answer ∈ answers, answer.isClosed = true := by
    intro items answers hanswers answer hanswer
    obtain ⟨item, hitem⟩ := exists_item hanswers answer hanswer
    exact h.closed hitem
  refine ⟨fun ha => ?_, fun ha => ?_, fun ha => ?_, fun ha => ?_⟩
  · obtain ⟨items, answers, -, hanswers, rfl⟩ := haccepts.1 ha
    have hsequence : (Value.list answers).sequence? = some answers :=
      congrArg some (Value.items_list_of_isClosed (hclosed hanswers))
    refine haccepts.2
      ⟨answers, answers, hsequence, List.forall₂_same.2 fun answer hanswer => ?_, rfl⟩
    obtain ⟨item, hitem⟩ := exists_item hanswers answer hanswer
    exact h.again hitem
  · obtain ⟨items, answers, -, hanswers, rfl⟩ := haccepts.1 ha
    exact Value.list_isClosed (hclosed hanswers)
  · obtain ⟨items, answers, -, -, rfl⟩ := haccepts.1 ha
    rfl
  · obtain ⟨items, answers, hitems, -⟩ := haccepts.1 ha
    cases hitems

end

/-! ## Records -/

section
variable {w : World} {mode : Mode} {members : List Member}

/-- The entries of the record of some answers. -/
def shown (mode : Mode) (answers : List (Value × Value)) : List (Value × Value) :=
  answers.filterMap fun (key, v) =>
    if v.isMissing then (if mode.dropsMissing then none else some (key, .null)) else some (key, v)

theorem build_eq (answers : List (Value × Value)) :
    Fields.build mode answers = .map (shown mode answers) := rfl

/-- Nothing that is shown is missing. -/
theorem shown_present {answers : List (Value × Value)} :
    ∀ e ∈ shown mode answers, e.2.isMissing = false := by
  intro e he
  obtain ⟨⟨key, v⟩, -, he⟩ := List.mem_filterMap.1 he
  simp only at he
  split at he
  · split at he
    · cases he
    · cases he
      rfl
  · next hv =>
    cases he
    exact Bool.eq_false_iff.2 hv

/-- What is not missing is shown as it is. -/
theorem shown_of_present {answers : List (Value × Value)}
    (h : ∀ e ∈ answers, e.2.isMissing = false) :
    shown mode answers = answers := by
  refine (List.filterMap_congr fun e he => ?_).trans List.filterMap_some
  simp only [h e he, Bool.false_eq_true, ite_false]

/-- What a record shows is answered again, by itself. -/
theorem answered_shown (h : ∀ m ∈ members, Idempotent (comes w m.validator mode))
    {working answers : List (Value × Value)} (hclosed : ∀ e ∈ working, e.2.isClosed = true)
    (ha : Fields.Answered mode (programs w mode members) working answers) :
    Fields.Answered mode (programs w mode members) (shown mode answers) (shown mode answers) ∧
      ∀ e ∈ shown mode answers, e.2.isClosed = true := by
  induction ha with
  | nil => exact ⟨.nil, nofun⟩
  | @judged key item v p rest answers hp hv _ ih =>
    obtain ⟨hanswered, hshown⟩ := ih fun e he => hclosed e (List.mem_cons_of_mem _ he)
    obtain ⟨m, hm, rfl, -⟩ := programFor?_some hp
    have hm := h m hm
    have hjudges : judges w m.validator mode item = .ok v := hv
    rw [judges_of_idempotent hm] at hjudges
    have hagain : judges w m.validator mode v = .ok v := by
      rw [judges_of_idempotent hm]
      exact hm.again hjudges
    have hcons : shown mode ((key, v) :: answers) = (key, v) :: shown mode answers := by
      simp [shown, hm.present hjudges]
    rw [hcons]
    exact ⟨.judged hp hagain hanswered, List.forall_mem_cons.2 ⟨hm.closed hjudges, hshown⟩⟩
  | @kept key item rest answers hp hmode _ ih =>
    obtain ⟨hitem, hrest⟩ := List.forall_mem_cons.1 hclosed
    obtain ⟨hanswered, hshown⟩ := ih hrest
    subst hmode
    have hcons : shown .all ((key, item) :: answers) =
        (key, if item.isMissing then .null else item) :: shown .all answers := by
      by_cases hmissing : item.isMissing <;> simp [shown, hmissing, Mode.dropsMissing]
    rw [hcons]
    refine ⟨.kept hp rfl hanswered, List.forall_mem_cons.2 ⟨?_, hshown⟩⟩
    split
    · rfl
    · exact hitem
  | dropped _ _ _ ih => exact ih fun e he => hclosed e (List.mem_cons_of_mem _ he)

/-- All that a record goes through is closed. -/
theorem working_isClosed {v : Value} {keys : List Value} {input : List (Value × Value)}
    (h : v.entries? = some input) : ∀ e ∈ Fields.working mode keys input, e.2.isClosed = true := by
  intro e he
  unfold Fields.working at he
  split at he
  · rcases List.mem_append.1 he with he | he
    · exact Value.entries?_isClosed h e he
    · obtain ⟨key, -, rfl⟩ := List.mem_map.1 he
      rfl
  · exact Value.entries?_isClosed h e he

/-- A key that is the same as that of some member has a program, and the program is that of a
member. -/
theorem exists_program (w : World) (mode : Mode) {m : Member} (hm : m ∈ members) {key : Value}
    (h : m.key.same key = true) :
    ∃ m' ∈ members, Fields.programFor? (programs w mode members) key =
      some ((m'.validator mode).step.program w) := by
  have hsome : (members.find? fun m => m.key.same key).isSome = true :=
    List.find?_isSome.2 ⟨m, hm, h⟩
  obtain ⟨m', hm'⟩ := Option.isSome_iff_exists.1 hsome
  refine ⟨m', List.mem_of_find?_eq_some hm', ?_⟩
  rw [programFor?_programs, hm']
  rfl

/-- Where absent keys are judged, a record that is accepted shows all keys of its schema. -/
theorem hasKey_shown (hfills : mode.fillsMissing = true)
    (h : ∀ m ∈ members, Idempotent (comes w m.validator mode))
    (hkeys : ∀ m ∈ members, m.key.isKey = true) {input answers : List (Value × Value)}
    (ha : Fields.Answered mode (programs w mode members)
      (Fields.working mode (members.map (·.key)) input) answers) :
    ∀ m ∈ members, Value.hasKey m.key (shown mode answers) = true := by
  intro m hm
  have hkey := hkeys m hm
  simp only [Value.isKey, Bool.and_eq_true, Option.isNone_iff_eq_none] at hkey
  have hworking : Fields.working mode (members.map (·.key)) input =
      input ++ ((members.map (·.key)).filter fun k => !Value.hasKey k input).map fun k =>
        (k, .missing) :=
    if_pos hfills
  cases hhas : Value.hasKey m.key input with
  | true =>
    -- The input may have the key in another form, such as a float for an integer: it is kept in
    -- that form, and found again since equality can be read in both directions.
    obtain ⟨⟨key, item⟩, hmem, hsame⟩ := List.any_eq_true.1 hhas
    obtain ⟨m', hm', hp⟩ := exists_program w mode hm (Value.same_symm hkey.1 hsame)
    obtain ⟨v, hv, hanswer⟩ := ha.judged_of_mem (hworking ▸ List.mem_append_left _ hmem) hp
    have hcomes : comes w m'.validator mode item = .ok v := (Call.judgement_eq_ok.1 hv).1
    refine List.any_eq_true.2 ⟨(key, v), List.mem_filterMap.2 ⟨(key, v), hanswer, ?_⟩, hsame⟩
    simp [(h m' hm').present hcomes]
  | false =>
    -- The absent key is judged as missing, which its program refuses.
    obtain ⟨m', hm', hp⟩ := exists_program w mode hm hkey.2
    have hmem : (m.key, Value.missing) ∈ Fields.working mode (members.map (·.key)) input := by
      rw [hworking]
      refine List.mem_append_right _ (List.mem_map_of_mem
        (List.mem_filter.2 ⟨List.mem_map_of_mem hm, ?_⟩))
      rw [hhas]
      rfl
    obtain ⟨v, hv, -⟩ := ha.judged_of_mem hmem hp
    exact absurd (Call.judgement_eq_ok.1 hv).1 (h m' hm').refuses

/-- The second time, nothing is absent. -/
theorem working_shown (h : ∀ m ∈ members, Idempotent (comes w m.validator mode))
    (hkeys : ∀ m ∈ members, m.key.isKey = true) {input answers : List (Value × Value)}
    (ha : Fields.Answered mode (programs w mode members)
      (Fields.working mode (members.map (·.key)) input) answers) :
    Fields.working mode (members.map (·.key)) (shown mode answers) = shown mode answers := by
  unfold Fields.working
  split
  · next hfills =>
    have hnone :
      ((members.map (·.key)).filter fun k => !Value.hasKey k (shown mode answers)) = [] := by
      refine List.filter_eq_nil_iff.2 fun key hkey => ?_
      obtain ⟨m, hm, rfl⟩ := List.mem_map.1 hkey
      simp [hasKey_shown hfills h hkeys ha m hm]
    rw [hnone, List.map_nil, List.append_nil]
  · rfl

theorem fields_idempotent (hw : w.NeverCancels) (message : Value)
    (h : ∀ m ∈ members, Idempotent (comes w m.validator mode))
    (hkeys : ∀ m ∈ members, m.key.isKey = true) :
    Idempotent (comes w (recordOf message members) mode) := by
  refine ⟨fun ha => ?_, fun ha => ?_, fun ha => ?_, fun ha => ?_⟩
  · obtain ⟨input, answers, hinput, hanswers, rfl⟩ := (comes_fields_ok hw).1 ha
    obtain ⟨hagain, hclosed⟩ := answered_shown h (working_isClosed hinput) hanswers
    refine (comes_fields_ok hw).2
      ⟨shown mode answers, shown mode answers, Value.entries?_map_of_isClosed hclosed, ?_, ?_⟩
    · rw [working_shown h hkeys hanswers]
      exact hagain
    · rw [build_eq, build_eq, shown_of_present shown_present]
  · obtain ⟨input, answers, hinput, hanswers, rfl⟩ := (comes_fields_ok hw).1 ha
    exact Value.map_isClosed (answered_shown h (working_isClosed hinput) hanswers).2
  · obtain ⟨input, answers, -, -, rfl⟩ := (comes_fields_ok hw).1 ha
    rfl
  · obtain ⟨input, answers, hinput, -⟩ := (comes_fields_ok hw).1 ha
    cases hinput

end

/-! ## Schemas -/

theorem isLeaf_of_compileLeaf {schema : Value} {u : Validator} (hs : IsCoercive schema)
    (hu : compileLeaf schema = .ok u) : isLeaf schema = true := by
  cases hs with
  | leaf h => exact h
  | list | tuple | map => cases hu

theorem IsCoercive.node {schema node : Value} (h : schema = .list [node] ∨ schema = .tuple [node])
    (hs : IsCoercive schema) : IsCoercive node := by
  rcases h with rfl | rfl
  · cases hs with
    | leaf hleaf => cases hleaf
    | list hnodes => exact hnodes node List.mem_cons_self
  · cases hs with
    | leaf hleaf => cases hleaf
    | tuple hnodes => exact hnodes node List.mem_cons_self

theorem IsCoercive.members {members : List Member} (hs : IsCoercive (nodeOf members)) :
    ∀ m ∈ members, m.key.isKey = true ∧ IsCoercive m.node := by
  intro m hm
  have hfield : (m.key, m.node) ∈ members.map fun m => (m.key, m.node) := List.mem_map_of_mem hm
  unfold nodeOf at hs
  cases hs with
  | leaf hleaf => cases hleaf
  | map hkeys hnodes => exact ⟨hkeys _ hfield, hnodes _ hfield⟩

/-- Schemas that only coerce call no user function, so they mean the same in every world. -/
theorem Compiles.program_eq {schema : Value} {validator : Mode → Validator}
    (h : Compiles schema validator) (hs : IsCoercive schema) (mode : Mode) (w w' : World) :
    (validator mode).step.program w = (validator mode).step.program w' := by
  induction h with
  | leaf hu =>
    rcases isLeaf_cases (isLeaf_of_compileLeaf hs hu) with ⟨p, rfl⟩ | ⟨kind, hkind⟩
    · cases hu
      simp only [Validator.hasPattern, Validator.test, Validator.check,
        Validator.andThen, Validator.create, Step.program, Check.program]
      rfl
    · rw [compileLeaf_of_kind hkind] at hu
      cases hu
      simp only [Step.program]
  | array => simp only [Validator.create, Step.program]
  | elements message hv helement ih =>
    simp only [listOf, Validator.andThen, Validator.create, Step.program, ih (hs.node hv)]
  | @fields message members hmembers ih =>
    have hprograms : programs w mode members = programs w' mode members := by
      rw [programs_eq_map, programs_eq_map]
      exact List.map_congr_left fun m hm => by rw [ih m hm (hs.members m hm).2]
    simp only [programs] at hprograms
    simp only [recordOf, Step.program, hprograms]

theorem Compiles.idempotent {w : World} (hw : w.NeverCancels) {schema : Value}
    {validator : Mode → Validator} (h : Compiles schema validator)
    (hs : IsCoercive schema) (mode : Mode) :
    Idempotent (comes w validator mode) := by
  induction h with
  | leaf hu => exact leaf_idempotent (isLeaf_of_compileLeaf hs hu) hu
  | array => exact coerce_comes_idempotent (by decide)
  | elements message hv helement ih => exact elements_idempotent hw message (ih (hs.node hv))
  | fields message hmembers ih =>
    exact fields_idempotent hw message (fun m hm => ih m hm (hs.members m hm).2)
      fun m hm => (hs.members m hm).1

/-- What a schema that only coerces has accepted, it accepts again, and comes to the same: in every
mode, and below every path. -/
theorem compile_idempotent {schema mode path message : Value} {settings : Settings} {u : Validator}
    (hs : IsCoercive schema) (hu : (compile schema mode path message settings).Yields u) (w : World)
    {v a : Value} (ha : (u.call w [v]).settle.2 = .ok a) : (u.call w [a]).settle.2 = .ok a := by
  obtain ⟨mode, segments, validator, -, hvalidator, rfl⟩ := compile_yields hu
  obtain ⟨f, hf⟩ := under_outcome w segments
  -- No function is called, so the world may be taken for one that has none.
  have hstill : (World.ofRoutines [] w.now).NeverCancels := World.ofRoutines_neverCancels nofun
  rw [hf, Attempt.mapError_eq_ok, hvalidator.program_eq hs mode w
    (World.ofRoutines [] w.now)] at ha ⊢
  exact (hvalidator.idempotent hstill hs mode).again ha

/-- A record with texts for a number and a truth value, a tuple for a list, and a key that is not
known. -/
theorem compile_idempotent_record :
    let schema := Value.map [(.text "age", .type .integer), (.text "fit", .bool true),
      (.int 1, .tuple [.record [("name", .text "")]])]
    let v :=
      Value.map [(.text "fit", .text " Yes "), (.int 1, .tuple [.record [("name", .text "a")]]),
        (.text "more", .missing), (.text "age", .text "7")]
    let w := World.ofRoutines [] (.ofDate ⟨2024, 1, 1⟩)
    IsCoercive schema ∧ ∃ u a, (compile schema (.text "all") (.list []) .null
      Settings.default).Yields u ∧
      (u.call w [v]).settle.2 = .ok a ∧ (u.call w [a]).settle.2 = .ok a ∧
      a.shown.toOption =
        some "\x7b'fit': True, 1: [\x7b'name': 'a'\x7d], 'more': None, 'age': 7\x7d" := by
  intro schema v w
  have hschema : IsCoercive schema := by
    have hitem : IsCoercive (.record [("name", .text "")]) :=
      .map (by decide +kernel) (List.forall_mem_singleton.2 (.leaf rfl))
    exact .map (by decide +kernel) (List.forall_mem_cons.2 ⟨.leaf rfl, List.forall_mem_cons.2
      ⟨.leaf rfl, List.forall_mem_singleton.2 (.tuple (List.forall_mem_singleton.2 hitem))⟩⟩)
  have hruns :
    ((compile schema (.text "all") (.list []) .null Settings.default []).1.toOption.bind fun u =>
      (u.call w [v]).settle.2.toOption.bind fun a => a.shown.toOption) =
      some "\x7b'fit': True, 1: [\x7b'name': 'a'\x7d], 'more': None, 'age': 7\x7d" := by
        decide +kernel
  obtain ⟨u, hu, hruns⟩ := Option.bind_eq_some_iff.1 hruns
  obtain ⟨a, ha, hshown⟩ := Option.bind_eq_some_iff.1 hruns
  have hbuilt : (compile schema (.text "all") (.list []) .null Settings.default).Yields u :=
    ⟨[], Attempt.toOption_eq_some.1 hu⟩
  have haccepted := Attempt.toOption_eq_some.1 ha
  exact ⟨hschema, u, a, hbuilt, haccepted, compile_idempotent hschema hbuilt w haccepted, hshown⟩

end Schema

end Attest
