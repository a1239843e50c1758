import Attest.Proofs.Nested

/-!
# Naming

The failure of a record or a list that stands under a key names the key, and is worded by a template
in which the key is a part. A key with dollar signs in it may therefore not be kept as it is.

* `Failure.NamesKey`: the words of a failure that come from a key.
* `Validator.members_named`: the failure of a whole under a key is at its place, in these words.
* `Validator.members_halve_dollars`: of two dollar signs in a key one is left.
-/

namespace Attest

open Schema (memberMessage compileNode)

/-! ## Words that come from a key -/

namespace Failure

/-- The words of a failure that come from a key: they are a template in which the trail, the number
of parts, the comparison and the key of the failure are filled. A key without dollar signs is kept
as it is. -/
structure NamesKey (k : String) (f : Failure) : Prop where
  filled : f.message = Text.fillTemplate (memberMessage k) (f.notice.textOf? f.children.length)
  others : ∀ name, name ∉ ["path", "count", "comparison", "key"] →
    f.notice.textOf? f.children.length name = none
  verbatim : '$' ∉ k.toList → f.message = k ++ " contains elements which are not valid"

/-- Wherever the failure of a whole under a key is moved, it names the key. -/
theorem MovedTo.namesKey {k comparison : String} {parts : List Failure}
    {trail : Trail} {f : Failure} (h : MovedTo trail (worded (wholeOf k comparison) parts) f)
    (hf : f.isWritable = true) : f.NamesKey k := by
  obtain ⟨n, children⟩ := f
  obtain ⟨hn, hc, -⟩ := isWritable_mk.1 hf
  have htemplate : n.template = .text (memberMessage k) := h.template
  have hfilled : (Failure.mk n children).message = Text.fillTemplate (memberMessage k)
    (n.textOf? children.length) :=
    (h.isCurrent : n.message = n.said children.length).trans (Notice.said_eq hn hc htemplate)
  refine ⟨hfilled, fun name hname => ?_, fun hk => ?_⟩
  · simp only [List.mem_cons, List.not_mem_nil, or_false, not_or] at hname
    obtain ⟨hpath, hcount, hcomparison, hkey⟩ := hname
    have hnone : n.get? name = none := by
      have hbeq : (name == "comparison") = false := by simpa using hcomparison
      have hcontext : (wholeOf k comparison).context = [("comparison", .text comparison)] := rfl
      refine (h.get? name hkey).trans ?_
      show (wholeOf k comparison).context.lookup name = none
      rw [hcontext, List.lookup_cons, hbeq]
      rfl
    show n.textOf? children.length name = none
    rw [Notice.textOf?_eq hn hc hpath hcount, hnone]
    rfl
  · have hrest : '$' ∉ " contains elements which are not valid".toList := by decide
    rw [hfilled]
    refine Text.fillTemplate_plain ?_
    rw [memberMessage, String.toList_append, List.mem_append]
    exact not_or.2 ⟨hk, hrest⟩

end Failure

/-! ## Wholes under a key -/

namespace Validator

/-- Where a part refuses an item because of what is in it, the whole value is refused, and the
failure at the place of the item names a key. -/
def NamesKey (w : World) (k : String) (u : Validator) (v : Value) (part : Validator) (item : Value)
    (place : Trail) : Prop :=
  ∀ g, (part.call w [item]).settle.2 = .error (.failure g) → g.children ≠ [] →
    ∃ f, (u.call w [v]).settle.2 = .error (.failure f) ∧
      ∃ g' ∈ f.nodes, g.MovedTo place g' ∧ g'.NamesKey k

theorem namesKey_of_judges {w : World} (hw : w.NeverCancels) {k : String}
    {u part : Validator} {v item : Value} {place : Trail} (ht : u.isTame = true)
    (hrun : u.staysWritable w [v] = true)
    (hjudges : ∀ g, (part.step.program w [item]).outcome = .error (.failure g) → g.children ≠ [] →
      Step.Judges w part.step item u.step v place)
    (hwhole : Step.IsReady w part.step item →
      ∀ g, (part.step.program w [item]).outcome = .error (.failure g) →
      g.children ≠ [] → ∃ comparison parts, g = Failure.worded
        (Failure.wholeOf k comparison) parts) :
    NamesKey w k u v part item place := fun _ hg hne =>
  refused_of_judges hw ht hrun hjudges hwhole (fun hmoved hwritable => hmoved.namesKey hwritable)
    hg hne

/-- However deep in a schema a record or a list stands under a key, what it says once it refuses a
value because of its parts names the key; and so does what a field of a blueprint with fields of its
own says, if it has no message. The key is part of a template: the names in it of the trail, of the
number of parts, of the comparison and of the key of the failure are filled, and if it has no dollar
sign it stays as it is. -/
theorem members_named {k : String} {w : World} (hw : w.NeverCancels) {u : Validator}
    (ht : u.isTame = true) {v item : Value} {place : Trail} (hrun : u.staysWritable w [v] = true) :
    (∀ {schema modeName path message node : Value} {settings : Settings},
      (Schema.compile schema modeName path message settings).Yields u → Schema.HasParts node →
      Schema.Reaches k node item schema v place →
      ∃ mode segments member, Schema.modeOf settings modeName = .ok mode ∧
      path.iterate = .ok segments ∧
        (compileNode mode settings (.text (memberMessage k)) node).Yields member ∧
        NamesKey w k u v member item (segments ++ place)) ∧
    (∀ {catalog : Option Catalog} {settings : Settings} {config config' : List (Value × Value)}
        {fields key x : Value}, (Blueprint.build catalog settings config).Yields u →
      Blueprint.FieldAt (Blueprint.option config "fields" (.list [])) v key x config' →
      Blueprint.Reaches k fields item (Blueprint.option config' "name" .null) config' x place →
      ∃ mode segments member, Blueprint.modeOf settings config = .ok mode ∧
        (Blueprint.option config "path" (.list [])).iterate = .ok segments ∧
        Blueprint.RecordOf ⟨catalog, settings, mode⟩ fields (.text (memberMessage k)) member ∧
        NamesKey w k u v member item (segments ++ (Trail.ofKey key ++ place))) := by
  constructor
  · intro schema modeName path message node settings hu hparts hreaches
    obtain ⟨mode, segments, compiled, hmode, hsegments, hcompiled, rfl⟩ :=
      Schema.compile_yields_node hu
    obtain ⟨member, hmember, hjudges⟩ := hreaches.judges (w := w) hcompiled
    refine ⟨mode, segments, member, hmode, hsegments, hmember, namesKey_of_judges hw ht hrun ?_ ?_⟩
    · exact fun _ _ _ => Schema.under_judges segments hjudges
    · exact fun hready _ hg hne => Schema.member_whole hparts hmember hw hready hg hne
  · intro catalog settings config config' fields key x hu hat hreaches
    obtain ⟨mode, list, nested, hmode, hlist, hnested, hcompiled⟩ := Blueprint.build_yields hu
    obtain ⟨_, segments, compiled, -, hsegments, hfields, rfl⟩ :=
      Schema.compile_map_yields hcompiled
    obtain ⟨_, field, hfield, hinside⟩ := hat.judges hlist hnested hfields _
    obtain ⟨member, hmember, hjudges⟩ := hreaches.judges (w := w) hfield
    refine ⟨mode, segments, member, hmode, hsegments, hmember, namesKey_of_judges hw ht hrun ?_ ?_⟩
    all_goals
      obtain ⟨_, _, _, _, _, hrecord⟩ := hmember
      obtain ⟨_, _, compiled, -, hnone, -, rfl⟩ := Schema.compile_map_yields hrecord
      obtain rfl := Except.ok.inj hnone
      rw [Schema.orElse_memberMessage] at *
    · intro g hg hne
      obtain ⟨input, hinput⟩ := Schema.fields_opened hg hne
      exact Schema.under_judges segments (hinside (hjudges (Value.isNullish_of_entries? hinput)))
    · exact fun hready _ hg hne => ⟨"struct", Schema.fields_whole hw hready hg hne⟩

/-- The failure that a validator refuses a value with. -/
def refusal? (u : Validator) (w : World) (v : Value) : Option Failure :=
  match (u.call w [v]).settle.2 with
  | .error (.failure f) => some f
  | _ => none

theorem refusal?_eq_some {u : Validator} {w : World} {v : Value} {f : Failure} :
    u.refusal? w v = some f ↔ (u.call w [v]).settle.2 = .error (.failure f) := by
  unfold refusal?
  split
  · next heq => rw [heq, Option.some.injEq, Except.error.injEq, Raised.failure.injEq]
  · next hne => exact ⟨nofun, fun h => absurd h (hne f)⟩

/-! ### Rows and cells

A list of records, each of which has a record under one key: as a schema, and as a blueprint. -/

namespace Rows

def world : World := .ofRoutines [] (.ofDate ⟨2024, 1, 1⟩)

def number : Value := .map [(.text "name", .text "n"), (.text "type", .text "integer")]

/-- The field of the cells, which need not be there. -/
def cells : List (Value × Value) :=
  [(.text "name", .text "cells"), (.text "type", .text "object"), (.text "required", .bool false),
    (.text "fields", .list [number])]

def row : List (Value × Value) :=
  [(.text "type", .text "object"), (.text "fields", .list [.map cells])]

def rows : List (Value × Value) :=
  [(.text "name", .text "rows"), (.text "type", .text "array"), (.text "items", .map row)]

def config : List (Value × Value) := [(.text "fields", .list [.map rows])]

def node : Value := .map [(.text "n", .type .integer)]

def schema : Value := .map [(.text "rows", .list [.map [(.text "cells", node)]])]

def item : Value := .map [(.text "n", .text "x")]

def input : Value := .map [(.text "rows", .list [.map [(.text "cells", item)]])]

/-- What stands under the key of the cells. -/
def member : Validator :=
  ⟨.object, .fields .strict (.text (memberMessage "cells")) [(.text "n", .coerce .integer .null)]⟩

theorem schema_reaches : Schema.Reaches "cells" node item schema input
    (Trail.ofKey (.text "rows") ++ (.int (0 : Nat) :: Trail.ofKey (.text "cells"))) :=
  .field rfl List.mem_cons_self (by with_unfolding_all rfl)
    (.element (.inl rfl) rfl rfl (.member rfl List.mem_cons_self (by with_unfolding_all rfl)))

theorem config_fieldAt :
    Blueprint.FieldAt (Blueprint.option config "fields" (.list [])) input (.text "rows")
    (.list [.map [(.text "cells", item)]]) rows := by
  with_unfolding_all exact ⟨⟨[.map rows], .map rows, rfl, rfl, rfl⟩, _, rfl, List.mem_cons_self⟩

theorem rows_reaches :
    Blueprint.Reaches "cells" (.list [number]) item (Blueprint.option rows "name" .null) rows
    (.list [.map [(.text "cells", item)]])
    (.int (0 : Nat) :: (Trail.ofKey (.text "cells") ++ [])) := by
  have hrows : Blueprint.IsOfKind rows .array := by
    with_unfolding_all exact ⟨rfl, "array", rfl, by decide +kernel⟩
  have hrow : Blueprint.IsOfKind row .object := by
    with_unfolding_all exact ⟨rfl, "object", rfl, by decide +kernel⟩
  have hcells : Blueprint.IsOfKind cells .object := by
    with_unfolding_all exact ⟨rfl, "object", rfl, by decide +kernel⟩
  have hat : Blueprint.FieldAt (.list [.map cells]) (.map [(.text "cells", item)])
    (.text "cells") item cells := by
    with_unfolding_all exact ⟨⟨[.map cells], .map cells, rfl, rfl, rfl⟩, _, rfl, List.mem_cons_self⟩
  have hname : Blueprint.option cells "name" .null = .text "cells" := by with_unfolding_all rfl
  have hitems : Value.lookup (.text "items") rows = some (.map row) := by with_unfolding_all rfl
  have htext : (Blueprint.option rows "name" .null).plain = .ok "rows" := by with_unfolding_all rfl
  have hfields : Value.lookup (.text "fields") row = some (.list [.map cells]) := by
    with_unfolding_all rfl
  have hcell : Value.lookup (.text "fields") cells = some (.list [number]) := by
    with_unfolding_all rfl
  have hmessage : Value.lookup (.text "message") cells = none := by with_unfolding_all rfl
  refine .element hrows hitems rfl htext rfl rfl ?_
  refine .field hrow hfields hat ?_
  rw [hname]
  exact .here hcells hcell hmessage

/-- The cells are refused because of the number in them. -/
theorem member_fails :
    ∃ g, (member.call world [item]).settle.2 = .error (.failure g) ∧ g.children ≠ [] ∧
    g.notice.trail = [] := by
  have hfails : (member.refusal? world item).any
    (fun g => !g.children.isEmpty && g.notice.trail.isEmpty) = true := by
    decide +kernel
  obtain ⟨g, hg, hparts⟩ := (Option.any_eq_true _ _).1 hfails
  simp only [Bool.and_eq_true, Bool.not_eq_true', List.isEmpty_eq_false_iff,
    List.isEmpty_iff] at hparts
  exact ⟨g, refusal?_eq_some.1 hg, hparts⟩

/-- Whatever names the key of the cells says so at their place. -/
theorem shown {u : Validator} (h : NamesKey world "cells" u input member item
      [.text "rows", .int (0 : Nat), .text "cells"]) :
    ∃ f, (u.call world [input]).settle.2 = .error (.failure f) ∧
      ∃ g ∈ f.nodes, g.notice.trail = [.text "rows", .int 0, .text "cells"] ∧
        g.message = "cells contains elements which are not valid" := by
  obtain ⟨g, hg, hne, htrail⟩ := member_fails
  obtain ⟨f, hf, g', hg', hmoved, hnames⟩ := h g hg hne
  have hplain : '$' ∉ "cells".toList := by decide
  have hplace := hmoved.trail
  rw [htrail] at hplace
  exact ⟨f, hf, g', hg', hplace, (hnames.verbatim hplain).trans (by decide)⟩

/-- The record of the cells, however deep the walk to them may go. -/
theorem recordOf_eq {record : Validator} (h : Blueprint.RecordOf ⟨none, Settings.default, .strict⟩
    (.list [number]) (.text (memberMessage "cells")) record) : record = member := by
  obtain ⟨fuel, list, nested, hlist, ⟨lines, hnested⟩, ⟨lines', hcompiled⟩⟩ := h
  obtain rfl := Except.ok.inj hlist
  let setting : Blueprint.Setting := ⟨none, Settings.default, .strict⟩
  have hone : (Blueprint.buildFields setting 1 [number] [] lines).1 = .error (.fault .endless) := by
    with_unfolding_all rfl
  have htwo : (Blueprint.buildFields setting 2 [number] [] lines).1 = .error (.fault .endless) := by
    with_unfolding_all rfl
  have henough : ∀ fuel, (Blueprint.buildFields setting (fuel + 3) [number] [] lines).1 =
      .ok [(.text "n", .ofValidator ⟨.integer, .coerce .integer .null⟩)] := by
    intro fuel
    with_unfolding_all rfl
  obtain _ | _ | _ | fuel := fuel
  · cases hnested
  · cases hone.symm.trans hnested
  · cases htwo.symm.trans hnested
  · obtain rfl := Except.ok.inj ((henough fuel).symm.trans hnested)
    exact (Except.ok.inj hcompiled).symm

end Rows

/-- The cells of the rows, judged by the schema and by the blueprint. -/
theorem members_named_rows :
    Rows.world.NeverCancels ∧ Schema.HasParts Rows.node ∧
      (∃ u, (Schema.compile Rows.schema .null (.list []) .null Settings.default).Yields u ∧
        u.isTame = true ∧
        u.staysWritable Rows.world [Rows.input] = true ∧
        ∃ f, (u.call Rows.world [Rows.input]).settle.2 = .error (.failure f) ∧
        ∃ g ∈ f.nodes, g.notice.trail = [.text "rows", .int 0, .text "cells"] ∧
          g.message = "cells contains elements which are not valid") ∧
      ∃ u, (Blueprint.build none Settings.default Rows.config).Yields u ∧ u.isTame = true ∧
        u.staysWritable Rows.world [Rows.input] = true ∧
        ∃ f, (u.call Rows.world [Rows.input]).settle.2 = .error (.failure f) ∧
        ∃ g ∈ f.nodes, g.notice.trail = [.text "rows", .int 0, .text "cells"] ∧
          g.message = "cells contains elements which are not valid" := by
  have hw : Rows.world.NeverCancels := World.ofRoutines_neverCancels nofun
  refine ⟨hw, trivial, ?_, ?_⟩
  · have hruns :
      ((Schema.compile Rows.schema .null (.list []) .null Settings.default []).1.toOption.map
        fun u =>
        (u.isTame, u.staysWritable Rows.world [Rows.input])) =
          some (true, true) := by decide +kernel
    obtain ⟨u, hu, hruns⟩ := Option.map_eq_some_iff.1 hruns
    obtain ⟨ht, hrun⟩ := Prod.mk.inj hruns
    have hbuilt : (Schema.compile Rows.schema .null (.list []) .null Settings.default).Yields u :=
      ⟨[], Attempt.toOption_eq_some.1 hu⟩
    have hparts : Schema.HasParts Rows.node := trivial
    obtain ⟨mode, segments, member, hmode, hsegments, ⟨lines, hcompiled⟩, hnamed⟩ :=
      (members_named hw ht hrun).1 hbuilt hparts Rows.schema_reaches
    obtain rfl := Except.ok.inj hmode
    obtain rfl := Except.ok.inj hsegments
    obtain rfl : Rows.member = member := Except.ok.inj hcompiled
    exact ⟨u, hbuilt, ht, hrun, Rows.shown hnamed⟩
  · have hruns : ((Blueprint.build none Settings.default Rows.config []).1.toOption.map fun u =>
        (u.isTame, u.staysWritable Rows.world [Rows.input])) =
          some (true, true) := by decide +kernel
    obtain ⟨u, hu, hruns⟩ := Option.map_eq_some_iff.1 hruns
    obtain ⟨ht, hrun⟩ := Prod.mk.inj hruns
    have hbuilt : (Blueprint.build none Settings.default Rows.config).Yields u :=
      ⟨[], Attempt.toOption_eq_some.1 hu⟩
    obtain ⟨mode, segments, member, hmode, hsegments, hrecord, hnamed⟩ :=
      (members_named hw ht hrun).2 hbuilt Rows.config_fieldAt Rows.rows_reaches
    have hstrict : Blueprint.modeOf Settings.default Rows.config = .ok .strict := by
      with_unfolding_all rfl
    have hnowhere : (Blueprint.option Rows.config "path" (.list [])).iterate = .ok [] := by
      with_unfolding_all rfl
    obtain rfl := Except.ok.inj (hstrict.symm.trans hmode)
    obtain rfl := Except.ok.inj (hnowhere.symm.trans hsegments)
    obtain rfl := Rows.recordOf_eq hrecord
    exact ⟨u, hbuilt, ht, hrun, Rows.shown hnamed⟩

end Validator

/-- What a failure of a record says of its only key, under which something is refused because of its
parts. -/
def Failure.onlyPart? : Failure → Option (String × String)
  | .mk _ [.mk ⟨_, _, [.text key], message⟩ (_ :: _)] => some (key, message)
  | _ => none

theorem Failure.onlyPart?_eq_some {f : Failure} {key message : String}
    (h : f.onlyPart? = some (key, message)) :
    ∃ g, f.children = [g] ∧ g.children ≠ [] ∧ g.notice.trail = [.text key] ∧
    g.message = message := by
  unfold onlyPart? at h
  split at h
  · cases h
    exact ⟨_, rfl, List.cons_ne_nil _ _, rfl, rfl⟩
  · cases h

namespace Validator

/-- The key of a record is two dollar signs, and the failure of the record names one. -/
theorem members_halve_dollars :
    let w := World.ofRoutines [] (.ofDate ⟨2024, 1, 1⟩)
    let schema := Value.map [(.text "$$", .map [(.text "b", .type .text)])]
    let v := Value.map [(.text "$$", .map [(.text "b", .int 1)])]
    ∃ u f g, (Schema.compile schema .null (.list []) .null Settings.default).Yields u ∧
      (u.call w [v]).settle.2 = .error (.failure f) ∧ f.children = [g] ∧ g.children ≠ [] ∧
      g.notice.trail = [.text "$$"] ∧ g.message = "$ contains elements which are not valid" ∧
      g.message ≠ "$$" ++ " contains elements which are not valid" := by
  intro w schema v
  let u : Validator := ⟨.object, .fields .strict (Value.null.orElse Settings.default.message)
    [(.text "$$", .fields .strict (.text (memberMessage "$$"))
      [(.text "b", .coerce .string .null)])]⟩
  have hbuilt : (Schema.compile schema .null (.list []) .null Settings.default).Yields u :=
    ⟨[], rfl⟩
  have hone : "$ contains elements which are not valid" ≠ "$$" ++
    " contains elements which are not valid" := by
    decide
  have hfails : (u.refusal? w v).bind Failure.onlyPart? =
      some ("$$", "$ contains elements which are not valid") := by decide +kernel
  obtain ⟨f, hf, hpart⟩ := Option.bind_eq_some_iff.1 hfails
  obtain ⟨g, hchildren, hne, htrail, hmessage⟩ := Failure.onlyPart?_eq_some hpart
  exact ⟨u, f, g, hbuilt, refusal?_eq_some.1 hf, hchildren, hne, htrail, hmessage, hmessage ▸ hone⟩

end Validator

end Attest
