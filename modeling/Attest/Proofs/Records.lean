import Attest.Proofs.Compiled
import Attest.Proofs.Placement
import Attest.Proofs.Promises
import Attest.Proofs.Templates

/-!
# Records

What the schema of a record compiles to, whatever its keys are: one field for each key, judged by
what the schema under the key compiles to. Each key that is gone through is of no matter to any
other one. What a record answers about it stands at its place, and where the record fails, the key
has a part in the failure just if it fails itself.

* `compile_map_yields`: the fields that the schema of a record compiles to.
* `compile_passes_extras`: where unknown keys pass through, they do so as they are, or null for
  missing.
* `compile_reports_keys`: a key that fails is reported under itself, unless it is null.
-/

namespace Attest

namespace Schema

/-! ## Fields -/

/-- The mode that is meant by a value: null is the one of the settings. -/
def modeOf (settings : Settings) : Value → Except Raised Mode
  | .null => .ok settings.defaultMode
  | v => Mode.parse v

/-- A field of a record: the key of the schema, and the step of what stands under it. -/
structure IsField (mode : Mode) (settings : Settings) (entry : Value × Value)
    (field : Value × Step) :
    Prop where
  key : field.1 = entry.1
  compiled : ∃ name kind, entry.1.plain = .ok name ∧
    (compileNode mode settings (.text (memberMessage name)) entry.2).Yields ⟨kind, field.2⟩

section
variable {mode : Mode} {settings : Settings} {entries : List (Value × Value)} {message : Value}

theorem compileFields_yields {fields : List (Value × Step)}
    (h : (compileFields mode settings entries).Yields fields) :
    List.Forall₂ (IsField mode settings) entries fields := by
  induction entries generalizing fields with
  | nil =>
    rw [compileFields] at h
    rw [h.pure]
    exact .nil
  | cons entry rest ih =>
    obtain ⟨key, node⟩ := entry
    rw [compileFields] at h
    obtain ⟨name, hname, h⟩ := h.bind
    obtain ⟨member, hmember, h⟩ := h.bind
    obtain ⟨more, hmore, h⟩ := h.bind
    rw [h.pure]
    exact .cons ⟨rfl, name, member.kind, Build.Yields.ofFault hname, hmember⟩ (ih hmore)

theorem compileNode_map_yields {u : Validator}
    (h : (compileNode mode settings message (.map entries)).Yields u) :
    ∃ fields, List.Forall₂ (IsField mode settings) entries fields ∧
      u = ⟨.object, .fields mode (message.orElse settings.message) fields⟩ := by
  rw [compileNode] at h
  obtain ⟨fields, hfields, h⟩ := h.bind
  obtain ⟨_, -, h⟩ := h.bind
  exact ⟨fields, compileFields_yields hfields, h.pure⟩

/-- What a schema compiles to in the mode that is meant, below the path. -/
theorem compile_yields_node {schema modeName path : Value} {u : Validator}
    (h : (compile schema modeName path message settings).Yields u) :
    ∃ mode segments node, modeOf settings modeName = .ok mode ∧ path.iterate = .ok segments ∧
      (compileNode mode settings message schema).Yields node ∧ u = under segments node := by
  have hrest : ∀ mode : Mode, (do
      let segments ← Build.ofFault path.iterate
      return under segments (← compileNode mode settings message schema) :
        Build Validator).Yields u →
        ∃ segments node, path.iterate = .ok segments ∧
          (compileNode mode settings message schema).Yields node ∧ u = under segments node := by
    intro mode h
    obtain ⟨segments, hsegments, h⟩ := h.bind
    obtain ⟨node, hnode, h⟩ := h.bind
    exact ⟨segments, node, hsegments.ofFault, hnode, h.pure⟩
  unfold compile at h
  simp only at h
  split at h
  · obtain ⟨mode, hmode, h⟩ := h.bind
    exact ⟨mode, (hrest mode h).imp fun segments => Exists.imp fun node hnode =>
      ⟨congrArg Except.ok hmode.pure.symm, hnode⟩⟩
  · next hnull =>
    obtain ⟨mode, hmode, h⟩ := h.bind
    have hmode : modeOf settings modeName = .ok mode := by
      rw [modeOf]
      · exact hmode.ofExcept
      · exact hnull
    exact ⟨mode, (hrest mode h).imp fun segments => Exists.imp fun node hnode => ⟨hmode, hnode⟩⟩

/-- The schema of a record compiles to a record with a field for each key, below the path. -/
theorem compile_map_yields {modeName path : Value} {u : Validator}
    (h : (compile (.map entries) modeName path message settings).Yields u) :
    ∃ mode segments fields, modeOf settings modeName = .ok mode ∧ path.iterate = .ok segments ∧
      List.Forall₂ (IsField mode settings) entries fields ∧
      u = under segments ⟨.object, .fields mode (message.orElse settings.message) fields⟩ := by
  obtain ⟨mode, segments, node, hmode, hsegments, hnode, rfl⟩ := compile_yields_node h
  obtain ⟨fields, hfields, rfl⟩ := compileNode_map_yields hnode
  exact ⟨mode, segments, fields, hmode, hsegments, hfields, rfl⟩

/-- Lists that agree on their keys, one by one. -/
theorem keys_eq {α β : Type} {R : Value × α → Value × β → Prop} {es : List (Value × α)}
    {fs : List (Value × β)} (h : List.Forall₂ R es fs) (hR : ∀ e f, R e f → f.1 = e.1) :
    fs.map (·.1) = es.map (·.1) := by
  induction h with
  | nil => rfl
  | cons hef _ ih => rw [List.map_cons, List.map_cons, hR _ _ hef, ih]

theorem fieldPrograms_keys (w : World) {fields : List (Value × Step)}
    (h : List.Forall₂ (IsField mode settings) entries fields) :
    (Step.fieldPrograms w fields).map (·.1) = entries.map (·.1) := by
  rw [Step.fieldPrograms_keys, keys_eq h fun _ _ hfield => hfield.key]

end

/-! ## Keys that pass through -/

section
variable {validators : List (Value × Program)}

theorem programFor?_eq_none_iff {key : Value} :
    Fields.programFor? validators key = none ↔
    ∀ known ∈ validators.map (·.1), known.same key = false := by
  simp only [Fields.programFor?, Option.map_eq_none_iff, List.find?_eq_none, List.forall_mem_map,
    Bool.not_eq_true]

/-- Where no key is dropped, each key that is gone through has its answer; a key without a program
has its item. -/
theorem answered_all {working answers : List (Value × Value)}
    (h : Fields.Answered .all validators working answers) :
    List.Forall₂ (fun e answer => answer.1 = e.1 ∧
      (Fields.programFor? validators e.1 = none → answer.2 = e.2)) working answers := by
  induction h with
  | nil => exact .nil
  | judged hp _ _ ih => exact .cons ⟨rfl, fun hnone => nomatch hp.symm.trans hnone⟩ ih
  | kept _ _ _ ih => exact .cons ⟨rfl, fun _ => rfl⟩ ih
  | dropped _ hmode _ _ => cases hmode

theorem working_all (keys : List Value) (input : List (Value × Value)) :
    Fields.working .all keys input =
      input ++ (keys.filter fun key => !Value.hasKey key input).map fun key =>
      (key, .missing) := rfl

/-- What stands for an answer where none is left out: null for a missing one. -/
def passed (v : Value) : Value := if v.isMissing then .null else v

theorem build_all (answers : List (Value × Value)) :
    Fields.build .all answers = .map (answers.map fun answer => (answer.1, passed answer.2)) := by
  rw [Fields.build, ← List.filterMap_eq_map]
  refine congrArg Value.map (List.filterMap_congr fun answer _ => ?_)
  simp only [Function.comp_apply, passed]
  split <;> rfl

end

/-- A record that accepts a map has answers for all that is gone through, whatever else may be
cancelled. -/
theorem fields_answered {mode : Mode} {message v a : Value} {validators : List (Value × Program)}
    {input : List (Value × Value)} (hinput : v.entries? = some input)
    (h : (Program.fields mode message validators [v]).outcome = .ok a) :
    ∃ answers, Fields.Answered mode validators
      (Fields.working mode (validators.map (·.1)) input) answers ∧
      a = Fields.build mode answers := by
  unfold Program.fields at h
  simp only [firstArgument, List.headD_cons, hinput] at h
  obtain ⟨findings, hfindings, hnone, ha⟩ := Composite.collect_eq_ok h
  exact ⟨_, Fields.answered_iff.1 (Composite.accepts_of_no_failures hfindings hnone), ha⟩

/-- In the mode that passes unknown keys through, whatever a record accepts it answers with all keys
of the input, each at its place, and then those of the schema that are not in the input; and a key
that the schema does not know has its item as it is, except that null stands for a missing one. -/
theorem compile_passes_extras {schema : List (Value × Value)} {modeName path message : Value}
    {settings : Settings} {u : Validator}
    (hu : (compile (.map schema) modeName path message settings).Yields u)
    (hmode : modeOf settings modeName = .ok .all) (w : World) {v a : Value}
    {input : List (Value × Value)} (hinput : v.entries? = some input)
    (ha : (u.call w [v]).settle.2 = .ok a) :
    ∃ answers, a = .map answers ∧
      answers.map (·.1) = input.map (·.1) ++ (schema.map (·.1)).filter
        (fun key => !Value.hasKey key input) ∧
      ∀ (i : Nat) (key item : Value), input[i]? = some (key, item) →
        (∀ known ∈ schema.map (·.1), known.same key = false) →
        answers[i]? = some (key, passed item) := by
  obtain ⟨mode, segments, fields, hmode', -, hfields, rfl⟩ := compile_map_yields hu
  obtain rfl : Mode.all = mode := Except.ok.inj (hmode.symm.trans hmode')
  obtain ⟨f, hf⟩ := under_outcome w segments
  rw [hf, Attempt.mapError_eq_ok, Step.program] at ha
  obtain ⟨answers, hanswers, rfl⟩ := fields_answered hinput ha
  have hkeys := fieldPrograms_keys w hfields
  have hall := answered_all hanswers
  rw [hkeys] at hall
  refine ⟨_, build_all answers, ?_, ?_⟩
  · have hsame := keys_eq hall fun _ _ he => he.1
    have habsent : ∀ keys : List Value, (keys.map fun key => (key, Value.missing)).map
      (·.1) = keys := by
      simp [Function.comp_def]
    rw [working_all, List.map_append, habsent] at hsame
    rw [List.map_map]
    exact hsame
  · intro i key item hi hunknown
    have hworking : (Fields.working .all (schema.map (·.1)) input)[i]? = some (key, item) := by
      rw [working_all, List.getElem?_append_left (List.getElem?_eq_some_iff.1 hi).1, hi]
    obtain ⟨hlt, hget⟩ := List.getElem?_eq_some_iff.1 hworking
    have hanswer := List.forall₂_iff_get.1 hall |>.2 i hlt (hall.length_eq ▸ hlt)
    simp only [List.get_eq_getElem, hget] at hanswer
    have hnone := programFor?_eq_none_iff.2 (hkeys ▸ hunknown)
    rw [List.getElem?_map, List.getElem?_eq_getElem (hall.length_eq ▸ hlt),
      Option.map_some, hanswer.1, hanswer.2 hnone]

/-- Two unknown keys, one of them with a missing item, around a key whose answer comes later. -/
theorem compile_passes_extras_deferred :
    let w := World.ofRoutines [⟨.constant (.text "B"), some "later", some 1⟩] (.ofDate ⟨2024, 1, 1⟩)
    let schema := [(Value.text "a", Value.function ⟨0⟩)]
    let input :=
      [(Value.text "x", Value.missing), (.text "a", .text "b"), (.bool true, .list [.null])]
    ∃ u a, (compile (.map schema) (.text "all") (.list []) .null Settings.default).Yields u ∧
      modeOf Settings.default (.text "all") = .ok .all ∧ (Value.map input).entries? = some input ∧
      (u.call w [.map input]).settle.2 = .ok a ∧ ∃ answers, a = .map answers ∧
        answers[0]? = some (.text "x", .null) ∧ answers[2]? = some (.bool true, .list [.null]) := by
  intro w schema input
  let u : Validator := ⟨.object, .fields .all (Value.null.orElse Settings.default.message)
    [(.text "a", (Validator.ofValue (.function ⟨0⟩)).step)]⟩
  have hbuilt : (compile (.map schema) (.text "all") (.list []) .null Settings.default).Yields u :=
    ⟨[], rfl⟩
  have haccepted : (u.call w [.map input]).settle.2.isOk = true := by decide +kernel
  cases ha : (u.call w [.map input]).settle.2 with
  | error r =>
    rw [ha] at haccepted
    cases haccepted
  | ok a =>
    obtain ⟨answers, hanswers, -, hextras⟩ := compile_passes_extras hbuilt rfl w rfl ha
    refine ⟨u, a, hbuilt, rfl, rfl, ha, answers, hanswers, ?_, ?_⟩
    · exact hextras 0 (.text "x") .missing rfl (by decide +kernel)
    · exact hextras 2 (.bool true) (.list [.null]) rfl (by decide +kernel)

/-- A missing item under an unknown key does not pass through as it is. -/
theorem compile_passes_null_for_missing :
    let w := World.ofRoutines [] (.ofDate ⟨2024, 1, 1⟩)
    let v := Value.map [(.text "x", .missing)]
    ∃ u, (compile (.map []) (.text "ALL") (.list []) .null Settings.default).Yields u ∧
      v.entries? = some [(.text "x", .missing)] ∧
      (u.call w [v]).settle.2 = .ok (.map [(.text "x", .null)]) ∧ Value.null ≠ .missing := by
  intro w v
  exact ⟨⟨.object, .fields .all _ []⟩, ⟨[], rfl⟩, rfl, rfl, nofun⟩

/-! ## Keys that fail -/

/-- Whether a key fails: its field refuses the item, or answers the object of an exception later; or
it has no field and unknown keys are refused. -/
def fails (w : World) (mode : Mode) (fields : List (Value × Step)) (key item : Value) : Bool :=
  match fields.find? fun field => field.1.same key with
  | some field => !(field.2.program w [item]).judgement.isOk
  | none => mode == .strict

/-- How a key that fails is reported: what its field raises stands at the key, and an unknown key is
named. -/
inductive Reported (w : World) (mode : Mode) (fields : List (Value × Step)) (key item : Value)
    (child : Failure) : Prop
  | judged {field : Value × Step} {r : Raised} :
      fields.find? (fun field => field.1.same key) = some field →
      (field.2.program w [item]).judgement = .error r →
      child = (r.promoted item (.text "struct")).placed key →
      child.notice.trail = key :: (r.promoted item (.text "struct")).notice.trail →
      child.notice.get? "key" = ((r.promoted item (.text "struct")).notice.get? "key").or
        (some key) →
      Reported w mode fields key item child
  | unknown {text : String} :
      fields.find? (fun field => field.1.same key) = none → mode = .strict → child.children = [] →
      child.notice.trail = [key] → child.notice.key = key → key.format = .ok text →
      child.message = "Unknown property passed \"" ++ text ++ "\"" →
      Reported w mode fields key item child

section
variable {w : World} {mode : Mode} {fields : List (Value × Step)} {key item : Value}

theorem programFor?_fieldPrograms (key : Value) :
    Fields.programFor? (Step.fieldPrograms w fields) key =
      (fields.find? fun field => field.1.same key).map fun field => field.2.program w := by
  rw [Step.fieldPrograms_eq_map, Fields.programFor?, List.find?_map, Option.map_map]
  rfl

theorem notice_placed (hkey : key ≠ .null) (f : Failure) :
    (f.placed key).notice = { (f.notice.withKey key).under [key] with
      message := ((f.notice.withKey key).under [key]).said (f.placed key).children.length } := by
  cases key with
  | null => exact absurd rfl hkey
  | _ => rfl

theorem trail_placed (hkey : key ≠ .null) (f : Failure) :
    (f.placed key).notice.trail = key :: f.notice.trail := by
  rw [notice_placed hkey]
  exact congrArg ([key] ++ ·) (Notice.trail_withKey f.notice key)

theorem get?_placed (hkey : key ≠ .null) (f : Failure) :
    (f.placed key).notice.get? "key" = (f.notice.get? "key").or (some key) := by
  rw [notice_placed hkey]
  exact Notice.get?_withKey f.notice key

theorem unknown_key (hkey : key ≠ .null) (item : Value) :
    (Failure.worded (Fields.unknown key item).head []).notice.get? "key" = some key := by
  have hcontext : (Failure.worded (Fields.unknown key item).head []).notice.context =
      (Fields.unknown key item).head.context := rfl
  have hkeyed : (Notice.Parts.unlessNull "key" key).lookup "key" = some key := by
    cases key with
    | null => exact absurd rfl hkey
    | _ => rfl
  rw [Notice.get?, hcontext]
  exact (Notice.Parts.head_key (p := Fields.unknown key item) rfl).trans hkeyed

theorem children_placed (f : Failure) : (f.placed key).children.length = f.children.length := by
  cases key with
  | null => rfl
  | _ => exact Failure.length_children_moved _ _

/-- The template about an unknown key, filled. -/
theorem unknown_filled {vars : String → Option String} {text : String}
    (h : vars "key" = some text) :
    Text.fillTemplate "Unknown property passed \"$\x7bkey\x7d\"" vars =
      "Unknown property passed \"" ++ text ++ "\"" := by
  have hcut : "Unknown property passed \"$\x7bkey\x7d\"".toList =
      "Unknown property passed \"".toList ++ '$' :: '\x7b' :: 'k' ::
        (['e', 'y'] ++ '\x7d' :: ['"']) := by
    decide
  have hname : String.ofList ('k' :: ['e', 'y']) = "key" := by decide
  have hstart : Text.isNameStart 'k' = true := by decide
  have hchars : ∀ c ∈ ['e', 'y'], Text.isNameChar c = true := List.all_eq_true.1 (by decide)
  have hend : Text.filled vars ['"'] = ['"'] := Text.filled_of_plain (by decide)
  rw [Text.fillTemplate_eq, hcut, Text.filled_plain (by decide), Text.filled_hole hstart
    hchars, hname, h, hend]
  apply String.toList_injective
  simp

/-- What is said of an unknown key. -/
theorem unknown_message (hkey : key ≠ .null) (hk : key.isWritable = true)
    (hi : item.isWritable = true) :
    ∃ text, key.format = .ok text ∧
      ((Failure.worded (Fields.unknown key item).head []).placed key).message =
        "Unknown property passed \"" ++ text ++ "\"" := by
  obtain ⟨text, htext⟩ : ∃ text, key.format = .ok text := by
    cases h : key.format with
    | ok text => exact ⟨text, rfl⟩
    | error e => cases hk.symm.trans (Value.format_error h).isWritable
  let f := Failure.worded (Fields.unknown key item).head []
  have hf : f.isWritable = true := Fields.unknown_isWritable hk hi
  have hn : ((f.notice.withKey key).under [key]).isWritable = true :=
    Notice.under_isWritable (Notice.withKey_isWritable (Failure.isWritable_mk.1 hf).1 hk)
      (by simpa using hk)
  have hget : ((f.notice.withKey key).under [key]).get? "key" = some key := by
    have hown : f.notice.get? "key" = some key := unknown_key hkey item
    refine (Notice.get?_withKey f.notice key).trans ?_
    rw [hown, Option.some_or]
  have htemplate : ((f.notice.withKey key).under [key]).template =
      .text "Unknown property passed \"$\x7bkey\x7d\"" := Notice.template_withKey f.notice key
  refine ⟨text, htext, ?_⟩
  show (f.placed key).notice.message = _
  rw [notice_placed hkey, children_placed]
  show ((f.notice.withKey key).under [key]).said 0 = _
  have hname : "key" ≠ "path" ∧ "key" ≠ "count" := by decide
  have hvariable := Notice.textOf?_eq hn Value.isWritable_zero hname.1 hname.2
  rw [hget, Option.bind_some, htext] at hvariable
  rw [Notice.said_eq hn Value.isWritable_zero htemplate, unknown_filled hvariable]

/-- The part of a key in the failure of the record. -/
def part? (w : World) (mode : Mode) (fields : List (Value × Step)) (key item : Value) :
    Option Failure :=
  match fields.find? fun field => field.1.same key with
  | some field =>
    match (field.2.program w [item]).judgement with
    | .ok _ => none
    | .error r => some ((r.promoted item (.text "struct")).placed key)
  | none =>
    if mode == .strict then some ((Failure.worded (Fields.unknown key item).head []).placed key)
      else none

theorem isSome_part? : (part? w mode fields key item).isSome = fails w mode fields key item := by
  unfold part? fails
  split
  · cases (Step.program w _ [item]).judgement <;> rfl
  · cases mode <;> rfl

/-- Unless the key is null, its part is a report of it. -/
theorem part?_reported (hk : key.isWritable = true) (hi : item.isWritable = true)
    (hkey : key ≠ .null) {child : Failure} (h : part? w mode fields key item = some child) :
    Reported w mode fields key item child := by
  unfold part? at h
  split at h
  · next field hfield =>
    split at h
    · cases h
    · next r hr =>
      cases h
      exact .judged hfield hr rfl (trail_placed hkey _) (get?_placed hkey _)
  · next hnone =>
    split at h
    · next hmode =>
      cases h
      obtain ⟨text, htext, hmessage⟩ := unknown_message hkey hk hi
      refine .unknown hnone (by simpa using hmode) ?_ (trail_placed hkey _) ?_ htext hmessage
      · exact List.length_eq_zero_iff.1 (children_placed _)
      · rw [Notice.key, get?_placed hkey, unknown_key hkey]
        rfl
    · cases h

/-- What is found of a key is its part, if it fails. -/
theorem entry?_part? (hk : key.isWritable = true) (hi : item.isWritable = true) :
    (Fields.entry? mode (Step.fieldPrograms w fields) key item).bind (fun e =>
      match e.found with
      | .rejected f => some (f.placed e.segment)
      | _ => none) = part? w mode fields key item := by
  unfold Fields.entry? part?
  rw [programFor?_fieldPrograms]
  cases fields.find? fun field => field.1.same key with
  | some field =>
    simp only [Option.map_some, Option.bind_some, Entry.found, Entry.segment]
    cases (field.2.program w [item]).judgement <;> rfl
  | none =>
    cases mode with
    | strict =>
      simp only [Option.map_none, Option.bind_some, Fields.unknownKey_eq hk hi,
        Entry.found, Entry.segment]
      rfl
    | all | defined | given => rfl

/-- The parts of the failure of a record, key by key. -/
theorem parts_eq {working : List (Value × Value)}
    (h : ∀ e ∈ working, e.1.isWritable = true ∧ e.2.isWritable = true) :
    (Composite.failures ((working.filterMap fun (key, item) =>
        Fields.entry? mode (Step.fieldPrograms w fields) key item).map fun e =>
          (e.segment, e.found))).map
          (fun part => part.2.placed part.1) =
      working.filterMap fun e => part? w mode fields e.1 e.2 := by
  unfold Composite.failures
  rw [List.filterMap_map, List.filterMap_filterMap, List.map_filterMap]
  refine List.filterMap_congr fun e he => ?_
  rw [← entry?_part? (h e he).1 (h e he).2]
  show Option.map _ ((Fields.entry? mode (Step.fieldPrograms w fields) e.1 e.2).bind _) = _
  cases Fields.entry? mode (Step.fieldPrograms w fields) e.1 e.2 with
  | none => rfl
  | some entry =>
    simp only [Option.bind_some, Function.comp_apply]
    cases entry.found <;> rfl

/-- The parts of some keys are reports of those that fail, one for each and in their order. -/
theorem parts_reported {working : List (Value × Value)}
    (h : ∀ e ∈ working, e.1.isWritable = true ∧ e.2.isWritable = true) :
    List.Forall₂ (fun e child => e.1 ≠ .null → Reported w mode fields e.1 e.2 child)
      (working.filter fun e => fails w mode fields e.1 e.2)
      (working.filterMap fun e => part? w mode fields e.1 e.2) := by
  induction working with
  | nil => exact .nil
  | cons e rest ih =>
    obtain ⟨hk, hi⟩ := h e List.mem_cons_self
    have ih := ih fun e he => h e (List.mem_cons_of_mem _ he)
    rw [List.filter_cons, ← isSome_part?, List.filterMap_cons]
    cases hpart : part? w mode fields e.1 e.2 with
    | none => exact ih
    | some child => exact .cons (fun hkey => part?_reported hk hi hkey hpart) ih

/-- Where a record fails, its failure has the parts of the keys, and there are some. -/
theorem fields_failure (hw : w.NeverCancels) (hf : Step.fieldsAreTame fields = true)
    {message v : Value} {input : List (Value × Value)} (hm : message.isMessage = true)
    (hinput : v.entries? = some input) (hv : v.isWritable = true)
    (hrun : (Step.fields mode message fields).staysWritable w [v] = true) {r : Raised}
    (hr : ((Step.fields mode message fields).program w [v]).outcome = .error r) :
    (∃ f, r = .failure f ∧ f.children ≠ [] ∧
      f.children = (Fields.working mode (fields.map (·.1)) input).filterMap fun e =>
        part? w mode fields e.1 e.2) ∧
    ∀ e ∈ Fields.working mode (fields.map (·.1)) input, e.1.isWritable = true ∧
    e.2.isWritable = true := by
  obtain ⟨hsettled, hworking⟩ := Step.fields_concluded hw hf hm hinput hv hrun
  refine ⟨?_, hworking⟩
  rw [hsettled] at hr
  unfold Composite.concluded at hr
  split at hr
  · cases hr
  · next hne =>
    cases hr
    exact ⟨_, rfl, fun hnil => hne (List.map_eq_nil_iff.1 hnil), parts_eq hworking⟩

end

/-- Where a record fails, its failure has one part for each key that fails, in the order of the
keys: for those of the schema that its own validator refuses and, where unknown keys are refused,
for the unknown ones. The trail of a part begins with its key, and an unknown key is named, unless
the key is null. -/
theorem compile_reports_keys {schema : List (Value × Value)} {modeName message : Value}
    {settings : Settings} {u : Validator}
    (hu : (compile (.map schema) modeName (.list []) message settings).Yields u)
    (hs : settings.HasTexts) (hm : message.isMessage = true)
    (ht : (Value.map schema).isTyped = true) {w : World} (hw : w.NeverCancels) {v : Value}
    {input : List (Value × Value)} (hinput : v.entries? = some input)
    (hrun : u.staysWritable w [v] = true) {r : Raised} (hr : (u.call w [v]).settle.2 = .error r) :
    ∃ mode fields f, modeOf settings modeName = .ok mode ∧
    List.Forall₂ (IsField mode settings) schema fields ∧
      r = .failure f ∧ f.children ≠ [] ∧
      List.Forall₂ (fun e child => e.1 ≠ .null → Reported w mode fields e.1 e.2 child)
        ((Fields.working mode (schema.map (·.1)) input).filter fun e => fails w mode fields e.1 e.2)
        f.children := by
  have htame : u.step.isTame false = true := compile_isTame ht rfl hs hm hu
  obtain ⟨mode, segments, fields, hmode, hsegments, hfields, rfl⟩ := compile_map_yields hu
  obtain rfl : [] = segments := Except.ok.inj hsegments
  simp only [under, List.isEmpty_nil, ↓reduceIte, Step.isTame, Bool.and_eq_true] at htame hrun hr
  obtain ⟨hv, hrun⟩ := Validator.staysWritable_one.1 hrun
  rw [Validator.settle_one] at hr
  obtain ⟨⟨f, hrf, hne, hparts⟩, hworking⟩ := fields_failure hw htame.2 htame.1 hinput hv hrun hr
  have hreported := @parts_reported w mode fields _ hworking
  rw [← hparts, keys_eq hfields fun _ _ hfield => hfield.key] at hreported
  exact ⟨mode, fields, f, hmode, hfields, hrf, hne, hreported⟩

/-- Keys that are no texts: one of the schema whose item is refused, an absent one that is refused
later, and two that the schema does not know. -/
theorem compile_reports_keys_strict :
    let w := World.ofRoutines [⟨.raise (.fault (.raised "ValueError" "odd")), none, some 1⟩]
      (.ofDate ⟨2024, 1, 1⟩)
    let schema := [(Value.int 1, Value.type .text), (.text "a", .function ⟨0⟩)]
    let input :=
      [(Value.int 1, Value.null), (.bool false, .text "x"), (.tuple [.null, .text "y"], .int 2)]
    (Value.map schema).isTyped = true ∧ w.NeverCancels ∧ (Value.map input).entries? = some input ∧
      ∃ u r, (compile (.map schema) .null (.list []) .null Settings.default).Yields u ∧
        u.staysWritable w [.map input] = true ∧ (u.call w [.map input]).isPromised = true ∧
        (u.call w [.map input]).settle.2 = .error r ∧
        ∃ mode fields f, modeOf Settings.default .null = .ok mode ∧
          List.Forall₂ (IsField mode Settings.default) schema fields ∧
            r = .failure f ∧ f.children ≠ [] ∧
          List.Forall₂ (fun e child => e.1 ≠ .null → Reported w mode fields e.1 e.2 child)
            ((Fields.working mode (schema.map (·.1)) input).filter fun e =>
              fails w mode fields e.1 e.2)
            f.children := by
  intro w schema input
  have hw : w.NeverCancels := World.ofRoutines_neverCancels (by simp)
  have ht : (Value.map schema).isTyped = true := by decide +kernel
  have hruns :
    ((compile (.map schema) .null (.list []) .null Settings.default []).1.toOption.map fun u =>
      (u.staysWritable w [.map input], (u.call w [.map input]).isPromised,
        (u.call w [.map input]).settle.2.isOk)) = some (true, true, false) := by decide +kernel
  obtain ⟨u, hu, hruns⟩ := Option.map_eq_some_iff.1 hruns
  simp only [Prod.mk.injEq] at hruns
  obtain ⟨hrun, hpromised, hfails⟩ := hruns
  have hbuilt : (compile (.map schema) .null (.list []) .null Settings.default).Yields u :=
    ⟨[], Attempt.toOption_eq_some.1 hu⟩
  cases hr : (u.call w [.map input]).settle.2 with
  | ok a =>
    rw [hr] at hfails
    cases hfails
  | error r =>
    exact ⟨ht, hw, rfl, u, r, hbuilt, hrun, hpromised, hr,
      compile_reports_keys hbuilt ⟨rfl, rfl⟩ rfl ht hw rfl hrun hr⟩

/-- An unknown key that is null is not named, and stands nowhere. -/
theorem compile_reports_null_nowhere :
    let w := World.ofRoutines [] (.ofDate ⟨2024, 1, 1⟩)
    let v := Value.map [(.null, .int 1)]
    ∃ u f child, (compile (.map []) .null (.list []) .null Settings.default).Yields u ∧
      v.entries? = some [(.null, .int 1)] ∧ (u.call w [v]).settle.2 = .error (.failure f) ∧
      f.children = [child] ∧ child.notice.trail = [] ∧ child.notice.get? "key" = none ∧
      child.message = "Unknown property passed \"$\x7bkey\x7d\"" := by
  intro w v
  let u : Validator := ⟨.object, .fields .strict (Value.null.orElse Settings.default.message) []⟩
  have hbuilt : (compile (.map []) .null (.list []) .null Settings.default).Yields u := ⟨[], rfl⟩
  have hw : w.NeverCancels := World.ofRoutines_neverCancels nofun
  have hrun : u.staysWritable w [v] = true := by decide +kernel
  have hfails : (u.call w [v]).settle.2.isOk = false := by decide +kernel
  cases hr : (u.call w [v]).settle.2 with
  | ok a =>
    rw [hr] at hfails
    cases hfails
  | error r =>
    have hone := Validator.staysWritable_one.1 hrun
    have hfailed : (u.step.program w [v]).outcome = .error r :=
      (Validator.settle_one u w v).symm.trans hr
    obtain ⟨⟨f, rfl, -, hparts⟩, -⟩ := fields_failure hw rfl rfl rfl hone.1 hone.2 hfailed
    refine ⟨u, f, _, hbuilt, rfl, hr, hparts, rfl, rfl, ?_⟩
    decide +kernel

end Schema

end Attest
