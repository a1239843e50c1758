import Attest.Proofs.Naming

/-!
# Settings in blueprints

What the settings decide about what a blueprint is built into: the mode and the words of the record
itself, where the blueprint has none of its own. What a list says that is described inside it is not
theirs: wherever it is described, a list without a message says what lists say by default, whatever
the settings.

* `Failure.IsWordedBy`: the failure of a whole in the words of a message.
* `Leads.list_judges`: where in a value a list that is described inside a blueprint judges.
* `Blueprint.settings_reach`: which settings reach what.
-/

namespace Attest

open Schema (compileNode)

/-! ## Words -/

namespace Failure

/-- The words of the failure of a whole: a message, in which the trail, the number of parts, the
comparison and the key of the failure are filled. A message without dollar signs is kept as it
is. -/
structure IsWordedBy (message : Value) (f : Failure) : Prop where
  template : f.notice.template = message
  words : ∃ text, message.asText? = some text ∧
    f.message = Text.fillTemplate text (f.notice.textOf? f.children.length) ∧
    ('$' ∉ text.toList → f.message = text)

/-- Wherever the failure of a whole is moved, it keeps its words. -/
theorem MovedTo.isWordedBy {message : Value} {comparison : String}
    {parts : List Failure} {trail : Trail} {f : Failure}
    (h : MovedTo trail (worded (Composite.outline message comparison).head parts) f)
    (hf : f.isWritable = true) (hm : message.isTemplate = true) : f.IsWordedBy message := by
  obtain ⟨n, children⟩ := f
  obtain ⟨hn, hc, -⟩ := isWritable_mk.1 hf
  have hwording : (Composite.outline message comparison).wording = message := by
    rw [Notice.Parts.wording, Notice.Parts.template?_eq hm]
    rfl
  have htemplate : n.template = message := h.template.trans hwording
  obtain ⟨text, htext⟩ := Option.isSome_iff_exists.1 hm
  have hfilled : (Failure.mk n children).message = Text.fillTemplate text
    (n.textOf? children.length) :=
    (h.isCurrent : n.message = n.said children.length).trans
      (Notice.said_of_asText? hn hc ((congrArg Value.asText? htemplate).trans htext))
  refine ⟨htemplate, text, htext, hfilled, fun hplain => ?_⟩
  rw [hfilled]
  exact Text.fillTemplate_plain hplain

end Failure

namespace Validator

/-- Where a part refuses an item because of what is in it, the whole value is refused, and the
failure at the place of the item is in the words of a message. -/
def WordsBy (w : World) (message : Value) (u : Validator) (v : Value)
    (part : Validator) (item : Value) (place : Trail) : Prop :=
  ∀ g, (part.call w [item]).settle.2 = .error (.failure g) → g.children ≠ [] →
    ∃ f, (u.call w [v]).settle.2 = .error (.failure f) ∧
      ∃ g' ∈ f.nodes, g.MovedTo place g' ∧ g'.IsWordedBy message

theorem wordsBy_of_judges {w : World} (hw : w.NeverCancels) {message : Value} {u part : Validator}
    {v item : Value} {place : Trail} (hm : message.isTemplate = true) (ht : u.isTame = true)
    (hrun : u.staysWritable w [v] = true)
    (hjudges : ∀ g, (part.step.program w [item]).outcome = .error (.failure g) → g.children ≠ [] →
      Step.Judges w part.step item u.step v place)
    (hwhole : Step.IsReady w part.step item →
      ∀ g, (part.step.program w [item]).outcome = .error (.failure g) →
      g.children ≠ [] → ∃ comparison parts,
        g = Failure.worded (Composite.outline message comparison).head parts) :
    WordsBy w message u v part item place := fun _ hg hne =>
  refused_of_judges hw ht hrun hjudges hwhole
    (fun hmoved hwritable => hmoved.isWordedBy hwritable hm) hg hne

end Validator

/-! ## Lists -/

/-- What a list refuses because of its items is a sequence. -/
theorem Schema.elements_opened {w : World} {message item : Value} {element : Step} {g : Failure}
    (hg : ((Step.andThen (.coerce .array .null) (.elements message element)).program w
      [item]).outcome = .error (.failure g)) (hne : g.children ≠ []) :
    ∃ items, item.sequence? = some items := by
  rw [Step.program, Program.andThen_eq, Call.outcome_next] at hg
  cases hu : ((Step.coerce .array .null).program w [item]).outcome with
  | error r =>
    rw [hu] at hg
    cases Except.error.inj hg
    exact absurd (coerce_children hu) hne
  | ok u =>
    rw [Step.program, Call.outcome_ofExcept] at hu
    obtain ⟨items, hitems, -⟩ := coerce_array_eq_ok.1 hu
    exact ⟨items, hitems⟩

namespace Blueprint

section
variable {s : Setting} {w : World} {config described : List (Value × Value)}
    {target item name items v : Value}
  {trail : Trail}

/-- A list that is described inside a field judges a part of the value of the field. -/
theorem Leads.list_judges (h : Leads target described item name config v trail)
    (hkind : IsOfKind described .array)
    (hitems : Value.lookup (.text "items") described = some items) {fuel : Nat} {u : Validator}
    (hu : (buildField s fuel config name).Yields u) :
    ∃ fuel' list element, (buildTyped s fuel' described target .array).Yields list ∧
      list.step = .andThen (.coerce .array .null)
        (.elements ((option described "message" .null).orElse Settings.default.arrayMessage)
          element) ∧
      (item.isNullish = false → Step.Judges w list.step item u.step v trail) := by
  obtain ⟨_, member, hmember, hjudges⟩ := h.judges hu
  obtain ⟨fuel', list, hlist, hextends⟩ := hkind.buildField_yields hmember
  obtain ⟨_, _, _, element, -, -, -, hstep⟩ := buildTyped_list hitems hlist
  refine ⟨fuel', list, element.step, hlist, hstep, fun hitem => ?_⟩
  rw [← List.append_nil trail]
  exact (Step.Judges.here.extends hextends hitem).trans hjudges

theorem orElse_of_not_isTruthy {message : Value} (h : message.isTruthy = false) (fallback : Value) :
    message.orElse fallback = fallback := by
  rw [Value.orElse, h]
  rfl

/-- What the settings decide. A blueprint without a mode of its own has theirs, and one without a
message says theirs. But each list in it that has no message says what lists say by default, at its
place in the value. -/
theorem settings_reach (hw : w.NeverCancels) {catalog : Option Catalog} {settings : Settings}
    (hs : settings.HasTexts) {u : Validator} (hu : (build catalog settings config).Yields u)
    (ht : u.isTame = true) (hrun : u.staysWritable w [v] = true) :
    ∃ mode segments fields, modeOf settings config = .ok mode ∧
      ((option config "mode" .null).isTruthy = false → mode = settings.defaultMode) ∧
      (option config "path" (.list [])).iterate = .ok segments ∧
      u = Schema.under segments
        ⟨.object, .fields mode ((option config "message" .null).orElse settings.message) fields⟩ ∧
      ((option config "message" .null).isTruthy = false →
        Validator.WordsBy w settings.message u v
          ⟨.object, .fields mode settings.message fields⟩ v segments) ∧
      ∀ {config' described : List (Value × Value)} {key x item items target :
        Value} {place : Trail},
        FieldAt (option config "fields" (.list [])) v key x config' →
        Leads target described item (option config' "name" .null) config' x place →
        IsOfKind described .array →
        Value.lookup (.text "items") described = some items →
        (option described "message" .null).isTruthy = false →
        ∃ fuel list, (buildTyped ⟨catalog, settings, mode⟩ fuel described target .array).Yields
          list ∧
          Validator.WordsBy w Settings.default.arrayMessage u v list item
            (segments ++ (Trail.ofKey key ++ place)) := by
  obtain ⟨mode, list, nested, hmode, hlist, hnested, hcompiled⟩ := build_yields hu
  obtain ⟨_, segments, fields, hmeant, hsegments, hfields, rfl⟩ :=
    Schema.compile_map_yields hcompiled
  obtain rfl := Except.ok.inj hmeant
  refine ⟨mode, segments, fields, hmode, ?_, hsegments, rfl, ?_, ?_⟩
  · intro hnone
    rw [modeOf] at hmode
    simp only [hnone, Bool.false_eq_true, ↓reduceIte, Except.ok.injEq] at hmode
    exact hmode.symm
  · intro hnone
    rw [orElse_of_not_isTruthy hnone] at *
    refine Validator.wordsBy_of_judges hw hs.message ht hrun (fun _ _ _ => ?_)
      fun hready _ hg hne =>
      ⟨"struct", Schema.fields_whole hw hready hg hne⟩
    have hplace : Step.Judges w (.fields mode settings.message fields) v
      (Schema.under segments ⟨.object, .fields mode settings.message fields⟩).step v
        (segments ++ []) :=
      Schema.under_judges segments .here
    rwa [List.append_nil] at hplace
  · intro config' described key x item items target place hat hleads hkind hitems hmessage
    obtain ⟨_, field, hfield, hinside⟩ := hat.judges hlist hnested hfields
      ((option config "message" .null).orElse settings.message)
    obtain ⟨fuel, list, element, hlist', hstep, hjudges⟩ :=
      hleads.list_judges (w := w) hkind hitems hfield
    refine ⟨fuel, list, hlist', ?_⟩
    rw [orElse_of_not_isTruthy hmessage] at hstep
    refine Validator.wordsBy_of_judges hw rfl ht hrun ?_ fun hready _ hg hne => ?_
    · intro g hg hne
      rw [hstep] at hg
      obtain ⟨_, hsequence⟩ := Schema.elements_opened hg hne
      exact Schema.under_judges segments (hinside
        (hjudges (Value.isNullish_of_sequence? hsequence)))
    · rw [hstep] at hg hready
      exact ⟨"array", Schema.elements_whole hw hready hg hne⟩

end

/-! ### Lists in a list

A blueprint of lists in a list, and settings of which nothing is as it is by default. -/

namespace Matrix

def settings : Settings := ⟨.given, .text "record", .text "items", none⟩

def cell : Value := .map [(.text "type", .text "integer")]

def row : List (Value × Value) := [(.text "type", .text "array"), (.text "items", cell)]

def rows : List (Value × Value) :=
  [(.text "name", .text "rows"), (.text "type", .text "array"), (.text "items", .map row)]

def config : List (Value × Value) := [(.text "fields", .list [.map rows])]

def item : Value := .list [.text "x"]

def input : Value := .map [(.text "rows", .list [item])]

/-- What the inner list is built into. -/
def list : Validator :=
  ⟨.array, .andThen (.coerce .array .null)
    (.elements Settings.default.arrayMessage (.coerce .integer .null))⟩

theorem fieldAt :
    FieldAt (option config "fields" (.list [])) input (.text "rows") (.list [item]) rows := by
  with_unfolding_all exact ⟨⟨[.map rows], .map rows, rfl, rfl, rfl⟩, _, rfl, List.mem_cons_self⟩

theorem row_isOfKind : IsOfKind row .array := by
  with_unfolding_all exact ⟨rfl, "array", rfl, by decide +kernel⟩

theorem rows_leads :
    Leads (.text "rows[]") row item (option rows "name" .null) rows (.list [item])
      [.int (0 : Nat)] := by
  have hrows : IsOfKind rows .array := by
    with_unfolding_all exact ⟨rfl, "array", rfl, by decide +kernel⟩
  have hitems : Value.lookup (.text "items") rows = some (.map row) := by with_unfolding_all rfl
  have htext : (option rows "name" .null).plain = .ok "rows" := by with_unfolding_all rfl
  exact .element hrows hitems rfl htext rfl rfl .here

/-- The inner list, however deep the walk to it may go. -/
theorem list_eq {fuel : Nat} {u : Validator}
    (h : (buildTyped ⟨none, settings, .given⟩ fuel row (.text "rows[]") .array).Yields u) :
    u = list := by
  obtain ⟨lines, h⟩ := h
  let setting : Setting := ⟨none, settings, .given⟩
  have hone : (buildTyped setting 1 row (.text "rows[]") .array lines).1 = .error
    (.fault .endless) := by
    with_unfolding_all rfl
  have htwo : (buildTyped setting 2 row (.text "rows[]") .array lines).1 = .error
    (.fault .endless) := by
    with_unfolding_all rfl
  have henough :
    ∀ fuel, (buildTyped setting (fuel + 3) row (.text "rows[]") .array lines).1 = .ok list := by
    intro fuel
    with_unfolding_all rfl
  obtain _ | _ | _ | fuel := fuel
  · cases h
  · cases hone.symm.trans h
  · cases htwo.symm.trans h
  · exact (Except.ok.inj ((henough fuel).symm.trans h)).symm

end Matrix

/-- The inner list says what lists say by default, and the record has the mode of the settings. -/
theorem settings_reach_matrix :
    let w := World.ofRoutines [] (.ofDate ⟨2024, 1, 1⟩)
    w.NeverCancels ∧ Matrix.settings.HasTexts ∧
      ∃ u fields, (build none Matrix.settings Matrix.config).Yields u ∧ u.isTame = true ∧
        u.staysWritable w [Matrix.input] = true ∧
        u = ⟨.object, .fields Matrix.settings.defaultMode Matrix.settings.message fields⟩ ∧
        ∃ f, (u.call w [Matrix.input]).settle.2 = .error (.failure f) ∧
          ∃ g ∈ f.nodes, g.notice.trail = [.text "rows", .int 0] ∧
            g.IsWordedBy Settings.default.arrayMessage := by
  intro w
  have hw : w.NeverCancels := World.ofRoutines_neverCancels nofun
  have hs : Matrix.settings.HasTexts := ⟨rfl, rfl⟩
  have hruns : ((build none Matrix.settings Matrix.config []).1.toOption.map fun u =>
      (u.isTame, u.staysWritable w [Matrix.input])) = some (true, true) := by decide +kernel
  obtain ⟨u, hu, hruns⟩ := Option.map_eq_some_iff.1 hruns
  obtain ⟨ht, hrun⟩ := Prod.mk.inj hruns
  have hbuilt : (build none Matrix.settings Matrix.config).Yields u :=
    ⟨[], Attempt.toOption_eq_some.1 hu⟩
  obtain ⟨mode, segments, fields, -, hmode, hsegments, hshape, -, hlists⟩ :=
    settings_reach hw hs hbuilt ht hrun
  have hnowhere : (option Matrix.config "path" (.list [])).iterate = .ok [] := by
    with_unfolding_all rfl
  obtain rfl := Except.ok.inj (hnowhere.symm.trans hsegments)
  obtain rfl := hmode (by with_unfolding_all rfl)
  have hwords := hlists Matrix.fieldAt Matrix.rows_leads Matrix.row_isOfKind
    (by with_unfolding_all rfl : _ = some Matrix.cell) (by with_unfolding_all rfl)
  obtain ⟨fuel, list, hlist, hwords⟩ := hwords
  obtain rfl := Matrix.list_eq hlist
  have hfails : (Matrix.list.refusal? w Matrix.item).any
      (fun g => !g.children.isEmpty && g.notice.trail.isEmpty) = true := by decide +kernel
  obtain ⟨g, hg, hparts⟩ := (Option.any_eq_true _ _).1 hfails
  simp only [Bool.and_eq_true, Bool.not_eq_true', List.isEmpty_eq_false_iff,
    List.isEmpty_iff] at hparts
  obtain ⟨f, hf, g', hg', hmoved, hworded⟩ := hwords g (Validator.refusal?_eq_some.1 hg) hparts.1
  refine ⟨hw, hs, u, fields, hbuilt, ht, hrun, ?_, f, hf, g', hg', ?_, hworded⟩
  · rw [hshape, orElse_of_not_isTruthy (by with_unfolding_all rfl)]
    rfl
  · rw [hmoved.trail, hparts.2]
    rfl

/-- The settings have words for lists of their own, and the failure of the list says what lists say
by default. -/
theorem list_ignores_settings :
    let w := World.ofRoutines [] (.ofDate ⟨2024, 1, 1⟩)
    let settings : Settings := ⟨.strict, .text "record", .text "items", none⟩
    let tags := Value.map [(.text "name", .text "tags"), (.text "type", .text "array"),
      (.text "items", .map [(.text "type", .text "string")])]
    let v := Value.map [(.text "tags", .list [.int 1])]
    ∃ u f g, (build none settings [(.text "fields", .list [tags])]).Yields u ∧
      (u.call w [v]).settle.2 = .error (.failure f) ∧ f.children = [g] ∧ g.children ≠ [] ∧
      g.notice.trail = [.text "tags"] ∧ g.message = "Array elements failed validation" ∧
        g.message ≠ "items" := by
  intro w settings tags v
  have hruns : ((build none settings [(.text "fields", .list [tags])] []).1.toOption.bind fun u =>
      (u.refusal? w v).bind Failure.onlyPart?) =
        some ("tags", "Array elements failed validation") := by decide +kernel
  obtain ⟨u, hu, hfails⟩ := Option.bind_eq_some_iff.1 hruns
  obtain ⟨f, hf, hpart⟩ := Option.bind_eq_some_iff.1 hfails
  obtain ⟨g, hchildren, hne, htrail, hmessage⟩ := Failure.onlyPart?_eq_some hpart
  refine ⟨u, f, g, ⟨[], Attempt.toOption_eq_some.1 hu⟩, Validator.refusal?_eq_some.1 hf,
    hchildren, hne, htrail, hmessage, ?_⟩
  rw [hmessage]
  decide

end Blueprint

end Attest
