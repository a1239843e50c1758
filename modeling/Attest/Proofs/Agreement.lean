import Attest.Proofs.Described
import Attest.Proofs.Rewording

/-!
# Agreement

A blueprint builds the validator that the schema it describes compiles to, but for the messages of
records and lists. The two recursions are walked through together: the one through the blueprint
compiles the schema of every nested record on its own, the other one compiles the schema of the
whole.

* `Describes.twin`: a description builds a rewording of what its schema compiles to.
* `build_agrees`: the two validators agree on every input.
-/

namespace Attest

open Schema (compileNode compileFields compileNode_map)

namespace Blueprint

section

variable {catalog : Option Catalog} {settings : Settings} {mode : Mode}
    {config : List (Value × Value)}

/-! ## Fields without parts -/

theorem resolve_makes {c : Catalog} {ref : Value} {v : Validator} (hkey : ref.unhashable? = none)
    (hfound : c.find? ref = some v) (name : Value) : (resolve (some c) name ref).Makes v := by
  unfold resolve Catalog.get Catalog.checkKey
  simp only [hkey, hfound]
  exact Build.Makes.bind (.pure ()) (.pure v)

theorem IsOfKind.makes {kind : Kind} (h : IsOfKind config kind) (name : Value) :
    (kindOf config name).Makes kind := by
  obtain ⟨type, htype, hkind⟩ := h.type
  refine (lowerName_makes htype).bind ?_
  rw [hkind]
  exact .pure kind

/-- A field that refers to no validator is built by its type. -/
theorem IsOfKind.buildField_makes {s : Setting} {kind : Kind}
    (h : IsOfKind config kind) {fuel : Nat} {name : Value} {v u : Validator}
    (hv : (buildTyped s fuel config name kind).Makes v) (hu : (finish config name v).Makes u) :
    (buildField s (fuel + 1) config name).Makes u := by
  rw [buildField]
  simp only [h.noReference, Bool.false_eq_true, ↓reduceIte]
  exact (h.makes name).bind (hv.bind hu)

theorem buildTyped_create {s : Setting} {kind : Kind}
    (hobject : kind = .object → Value.lookup (.text "fields") config = none)
    (harray : kind = .array → Value.lookup (.text "items") config = none)
    (fuel : Nat) (name : Value) :
    (buildTyped s (fuel + 1) config name kind).Makes (Validator.create kind .null) := by
  unfold buildTyped
  cases kind with
  | object =>
    rw [hobject rfl]
    exact .pure _
  | array =>
    rw [harray rfl]
    exact .pure _
  | _ => exact .pure _

/-- A field that describes no parts is built as described. -/
theorem leaf_makes {start v : Validator} {checks : List Value}
    (hstart : Starts catalog config start)
    (hchecks : (option config "checks" (.list [])).iterate = .ok checks)
    (h : CheckedAll checks start v) (fuel : Nat) (name : Value) :
    (buildField ⟨catalog, settings, mode⟩ (fuel + 2) config name).Makes (orDefault config v) := by
  have hfinish := finish_makes name hchecks h
  cases hstart with
  | reference href hkey hcatalog hfound =>
    rw [buildField]
    simp only [href, ↓reduceIte, hcatalog]
    exact (resolve_makes hkey hfound name).bind hfinish
  | type hkind hobject harray =>
    exact hkind.buildField_makes (buildTyped_create hobject harray fuel name) hfinish

/-! ## Records -/

/-- A field of a record as a blueprint builds it, and as its schema compiles. -/
structure Twin where
  key : Value
  built : Validator
  compiled : Step

namespace Twin

/-- The schema of validators that the fields of a blueprint are built into. -/
def fields (twins : List Twin) :
    List (Value × Value) := twins.map fun t => (t.key, .ofValidator t.built)

def pair (t : Twin) : Step.Pair := ⟨t.key, t.built.step, t.compiled⟩

end Twin

/-- Fields of a record that are built as they compile, but for messages. -/
structure AreTwins (twins : List Twin) : Prop where
  keys : ∀ t ∈ twins, t.key.isWritable = true
  reworded : ∀ t ∈ twins, Step.Reworded t.built.step t.compiled

/-- A description builds, with fuel enough, a rewording of what a schema compiles to. -/
def HasTwin (catalog : Option Catalog) (settings : Settings) (mode : Mode)
    (config : List (Value × Value)) (node : Value) : Prop :=
  ∀ n fuel, (Value.map config).fieldCount? = some n → 3 * n ≤ fuel →
    ∀ name message : Value, name.isWritable = true → message.isMessage = true →
      ∃ v u, (buildField ⟨catalog, settings, mode⟩ fuel config name).Makes v ∧
        (compileNode mode settings message node).Makes u ∧ Step.Reworded v.step u.step

theorem nameOf_makes {built : List (Value × Value)} {name : Value}
    (hname : option config "name" .null = name) (htruthy : name.isTruthy = true)
    (hkey : name.unhashable? = none) (hnew : Value.hasKey name built = false) :
    (nameOf config built).Makes name := by
  unfold nameOf
  simp only [hname, htruthy, hkey, hnew]
  exact .pure name

/-- The fields of a record are built as their schemas compile, one after the other. -/
theorem buildFields_makes :
    ∀ {members : List Member} {items : List Value} {built : List (Value × Value)}
    {n fuel : Nat}, items.map Value.entries? = members.map (fun m => some m.config) →
    Value.fieldCountOfAll? items = some n → 3 * n + 1 ≤ fuel →
    (∀ m ∈ members, m.name.isTruthy = true ∧ m.name.unhashable? = none ∧ m.name.isWritable = true) →
    (built.map (·.1) ++ members.map Member.name).Pairwise (fun a b => a.same b = false) →
    (∀ m ∈ members, HasTwin catalog settings mode m.config m.node) →
    ∃ twins, AreTwins twins ∧
      (buildFields ⟨catalog, settings, mode⟩ fuel items built).Makes (built ++ Twin.fields twins) ∧
      (compileFields mode settings (members.map fun m => (m.name, m.node))).Makes
        (twins.map fun t => (t.key, t.compiled))
  | [], [], built, _, fuel + 1, _, _, _, _, _, _ => by
    refine ⟨[], ⟨List.forall_mem_nil _, List.forall_mem_nil _⟩, ?_, .pure _⟩
    rw [buildFields, Twin.fields, List.map_nil, List.append_nil]
    exact .pure built
  | m :: members, item :: items, built, n, fuel + 1, hitems, hn, hfuel, hnamed,
      hdistinct, htwins => by
    obtain ⟨hconfig, hitems⟩ := List.cons.inj hitems
    obtain ⟨a, b, ha, hb, rfl⟩ := Value.fieldCountOfAll?_cons.1 hn
    have hcount := Value.fieldCount?_entries? hconfig ha
    obtain ⟨k, -, hk⟩ := Value.fieldCount?_map.1 hcount
    obtain ⟨htruthy, hkey, hwritable⟩ := hnamed m List.mem_cons_self
    obtain ⟨text, htext⟩ := Build.Makes.plain hwritable
    obtain ⟨v, u, hv, hu, hreworded⟩ := htwins m List.mem_cons_self a fuel hcount (by omega) m.name
      (.text (Schema.memberMessage text)) hwritable rfl
    have hnew : Value.hasKey m.name built = false := by
      rw [List.pairwise_append] at hdistinct
      simpa [Value.hasKey] using fun key value he =>
        hdistinct.2.2 key (List.mem_map_of_mem he) m.name List.mem_cons_self
    have hdistinct' : ((built ++ [(m.name, Value.ofValidator v)]).map Prod.fst ++
        members.map Member.name).Pairwise fun a b => a.same b = false := by
      simpa only [List.map_append, List.map_cons, List.map_nil, List.append_assoc,
        List.singleton_append]
        using hdistinct
    have hrest : 3 * b + 1 ≤ fuel := by omega
    obtain ⟨twins, ⟨hkeys, hsteps⟩, hbuilt, hcompiled⟩ := buildFields_makes hitems hb hrest
      (fun m' hm' => hnamed m' (List.mem_cons_of_mem _ hm')) hdistinct'
      fun m' hm' => htwins m' (List.mem_cons_of_mem _ hm')
    refine ⟨⟨m.name, v, u.step⟩ :: twins, ⟨?_, ?_⟩, ?_, ?_⟩
    · exact List.forall_mem_cons.2 ⟨hwritable, hkeys⟩
    · exact List.forall_mem_cons.2 ⟨hreworded, hsteps⟩
    · rw [List.append_assoc] at hbuilt
      rw [buildFields]
      exact (configOf_makes hconfig).bind
        ((nameOf_makes rfl htruthy hkey hnew).bind (hv.bind hbuilt))
    · rw [List.map_cons, compileFields]
      exact htext.bind (hu.bind (hcompiled.bind (.pure _)))

/-- What the fields of a blueprint are built into compiles to itself. -/
theorem AreTwins.compileFields_makes {twins : List Twin} (h : AreTwins twins) :
    (compileFields mode settings (Twin.fields twins)).Makes
      (twins.map fun t => (t.key, t.built.step)) := by
  have hfields := Schema.compileFields_makes mode settings
    (List.forall_mem_map.2 h.keys : ∀ field ∈ twins.map fun t => (t.key, t.built),
      field.1.isWritable = true)
  rw [List.map_map, List.map_map] at hfields
  exact hfields

/-- A schema that compiles does so under a path. -/
theorem compile_makes {schema modeValue path message : Value}
    {segments : List Value} {v : Validator}
    (hmode : modeValue = .null ∧ mode = settings.defaultMode ∨
      modeValue ≠ .null ∧ Mode.parse modeValue = .ok mode)
    (hpath : path.iterate = .ok segments) (h : (compileNode mode settings message schema).Makes v) :
    (Schema.compile schema modeValue path message settings).Makes (Schema.under segments v) := by
  have hrest : (do
      let segments ← Build.ofFault path.iterate
      return Schema.under segments (← compileNode mode settings message schema) :
        Build Validator).Makes
        (Schema.under segments v) :=
    (Build.Makes.ofFault hpath).bind (h.bind (.pure _))
  unfold Schema.compile
  rcases hmode with ⟨rfl, rfl⟩ | ⟨hnull, hparse⟩
  · exact (Build.Makes.pure _).bind hrest
  · simp only
    exact (Build.Makes.ofExcept hparse).bind hrest

theorem mode_ne_null (mode : Mode) : Value.mode mode ≠ .null := by
  intro h
  cases h

theorem compile_mode_makes {schema message : Value} {v : Validator}
    (h : (compileNode mode settings message schema).Makes v) :
    (Schema.compile schema (.mode mode) (.list []) message settings).Makes v := by
  have hpath : (Value.list []).iterate = .ok [] := rfl
  exact compile_makes (.inr ⟨mode_ne_null mode, rfl⟩) hpath h

/-- Two records of twins are a rewording of one another. -/
theorem AreTwins.record {twins : List Twin} (h : AreTwins twins) {message message' : Value}
    (hm : message.isMessage = true) (hm' : message'.isMessage = true) :
    Step.Reworded (.fields mode message (twins.map fun t => (t.key, t.built.step)))
      (.fields mode message' (twins.map fun t => (t.key, t.compiled))) := by
  have hpairs : ∀ pair ∈ twins.map Twin.pair, Step.Reworded pair.left pair.right :=
    List.forall_mem_map.2 h.reworded
  have hrecord := Step.Reworded.fields mode hm hm' hpairs
  rw [List.map_map, List.map_map] at hrecord
  exact hrecord

/-! ## Nested fields -/

theorem IsWhole.option_message {kind : Kind} (h : IsWhole config kind) {default : Value}
    (hd : default.isMessage = true) :
    (option config "message" default).isMessage = true := by
  have hm := h.message
  unfold option at hm ⊢
  cases hfound : Value.lookup (.text "message") config with
  | none => exact hd
  | some message =>
    rw [hfound] at hm
    exact hm

theorem leadsOn_fields {key : Value} (h : key.same (.text "fields") = true) :
    key.leadsOn = true := by
  rw [Value.leadsOn, h, Bool.true_or]

theorem leadsOn_items {key : Value} (h : key.same (.text "items") = true) : key.leadsOn = true := by
  rw [Value.leadsOn, h, Bool.or_true]

theorem iterate_of_sequence? {v : Value} {items : List Value} (h : v.sequence? = some items) :
    v.iterate = .ok items := by
  cases v with
  | list | tuple =>
    cases h
    rfl
  | _ => cases h

/-- The nested record of a field is built as its schema compiles. -/
theorem record_hasTwin (hs : settings.HasTexts) {fields : Value} {members : List Member}
    (hwhole : IsWhole config .object) (hfields : Value.lookup (.text "fields") config = some fields)
    (hlists : Lists fields members)
    (htwins : ∀ m ∈ members, HasTwin catalog settings mode m.config m.node) :
    HasTwin catalog settings mode config (Member.schemaOf members) := by
  intro n fuel hn hfuel name message hname hmessage
  obtain ⟨k, hk, rfl⟩ := Value.fieldCount?_map.1 hn
  obtain ⟨l, hl, hle⟩ := Value.fieldCount?_lookup (fun _ => leadsOn_fields) hfields hk
  obtain ⟨items, hitems, hconfigs⟩ := hlists.items
  obtain ⟨fuel, rfl⟩ := Nat.exists_eq_add_of_le' (Nat.le_trans (by omega : 2 ≤ 3 * (k + 1)) hfuel)
  have hrest : 3 * l + 1 ≤ fuel := by omega
  have hdistinct : (([] : List (Value × Value)).map Prod.fst ++ members.map Member.name).Pairwise
      fun a b => a.same b = false := hlists.distinct
  obtain ⟨twins, htwin, hbuilt, hcompiled⟩ := buildFields_makes hconfigs
    (Value.fieldCountOfAll?_sequence? hitems hl) hrest hlists.named hdistinct htwins
  obtain ⟨text, htext⟩ := Build.Makes.plain hname
  have hnested := Value.isMessage_of_isTemplate (Value.orElse_isTemplate
    (hwhole.option_message (rfl : (Value.text (Schema.memberMessage text)).isMessage = true))
      hs.message)
  have hmine := Value.isMessage_of_isTemplate (Value.orElse_isTemplate hmessage hs.message)
  refine ⟨⟨.object, .fields mode _ (twins.map fun t => (t.key, t.built.step))⟩, _,
    hwhole.kind.buildField_makes ?_ (hwhole.finish_makes name _), compileNode_map hcompiled,
    htwin.record hnested hmine⟩
  unfold buildTyped
  rw [hfields]
  refine (Build.Makes.ofFault (iterate_of_sequence? hitems)).bind (hbuilt.bind (htext.bind ?_))
  exact compile_mode_makes (compileNode_map htwin.compileFields_makes)

/-- The items of a list are built as their schema compiles. -/
theorem items_hasTwin (hs : settings.HasTexts) {config' : List (Value × Value)} {items node : Value}
    (hwhole : IsWhole config .array) (hitems : Value.lookup (.text "items") config = some items)
    (hconfig : items.entries? = some config') (htwin : HasTwin catalog settings mode config' node) :
    HasTwin catalog settings mode config (.list [node]) := by
  intro n fuel hn hfuel name message hname hmessage
  obtain ⟨k, hk, rfl⟩ := Value.fieldCount?_map.1 hn
  obtain ⟨l, hl, hle⟩ := Value.fieldCount?_lookup (fun _ => leadsOn_items) hitems hk
  obtain ⟨fuel, rfl⟩ := Nat.exists_eq_add_of_le' (Nat.le_trans (by omega : 2 ≤ 3 * (k + 1)) hfuel)
  obtain ⟨text, htext⟩ := Build.Makes.plain hname
  obtain ⟨v, u, hv, hu, hreworded⟩ :=
    htwin l fuel (Value.fieldCount?_entries? hconfig hl) (by omega)
    (.text (text ++ "[]")) .null (Value.isWritable_text _) rfl
  have hnested := Value.isMessage_of_isTemplate
    (Value.orElse_isTemplate hwhole.message (rfl : Settings.default.arrayMessage.isTemplate = true))
  have hmine := Value.isMessage_of_isTemplate (Value.orElse_isTemplate hmessage hs.arrayMessage)
  have harray : (Validator.create .array .null).step.isTame true = true :=
    Step.isTame_of_guarded (Validator.create_isTame .array rfl) true
  have hcompiled : (compileNode mode settings message (.list [node])).Makes
      ((Validator.create .array .null).andThen
        (.elements (message.orElse settings.arrayMessage) u.step)) := by
    rw [compileNode, Schema.compileElement]
    exact hu.bind (.pure _)
  refine ⟨(Validator.create .array .null).andThen (.elements _ v.step), _,
    hwhole.kind.buildField_makes ?_ (hwhole.finish_makes name _), hcompiled,
    .andThen harray (.elements hnested hmine hreworded)⟩
  unfold buildTyped
  rw [hitems]
  refine htext.bind ((configOf_makes hconfig).bind (hv.bind ?_))
  have helement : (compileNode mode Settings.default .null (.ofValidator v)).Makes v :=
    .ofExcept rfl
  exact (compile_mode_makes helement).bind (.pure _)

theorem leaf_hasTwin {start v : Validator} {checks : List Value}
    (hstart : Starts catalog config start)
    (hchecks : (option config "checks" (.list [])).iterate = .ok checks)
    (h : CheckedAll checks start v) (ht : (Value.ofValidator (orDefault config v)).isTyped = true) :
    HasTwin catalog settings mode config (.ofValidator (orDefault config v)) := by
  intro n fuel hn hfuel name message _ _
  obtain ⟨k, -, rfl⟩ := Value.fieldCount?_map.1 hn
  obtain ⟨fuel, rfl⟩ := Nat.exists_eq_add_of_le' (Nat.le_trans (by omega : 2 ≤ 3 * (k + 1)) hfuel)
  exact ⟨_, _, leaf_makes hstart hchecks h fuel name, .ofExcept rfl, .same ht⟩

/-- A description of a field builds a rewording of what its schema compiles to. -/
theorem Describes.twin (hs : settings.HasTexts) {node : Value} (h : Describes catalog config node)
    (ht : node.isTyped = true) : HasTwin catalog settings mode config node := by
  induction h with
  | leaf hstart hchecks hchecked => exact leaf_hasTwin hstart hchecks hchecked ht
  | @record config fields members hwhole hfields hlists _ ih =>
    simp only [Member.schemaOf, Value.isTyped, Value.everywhere, Bool.true_and,
      Value.everywhereEntries_iff, List.forall_mem_map] at ht
    exact record_hasTwin hs hwhole hfields hlists fun m hm => ih m hm (ht m hm).2
  | items hwhole hitems hconfig _ ih =>
    simp only [Value.isTyped, Value.everywhere, Bool.true_and, Value.everywhereAll_iff,
      List.mem_singleton, forall_eq] at ht
    exact items_hasTwin hs hwhole hitems hconfig (ih ht)

/-! ## Whole blueprints -/

theorem reworded_under {path : List Value} {v u : Validator} (h : Step.Reworded v.step u.step) :
    Step.Reworded (Schema.under path v).step (Schema.under path u).step := by
  unfold Schema.under
  split
  · exact h
  · exact .inside path h

/-- A path changes nothing about what a validator begins with. -/
theorem bareKind?_under (path : List Value) (v : Validator) :
    (Schema.under path v).step.bareKind? = v.step.bareKind? := by
  unfold Schema.under
  split
  · rfl
  · rfl

/-- Building goes on in the mode that the schema is compiled in. -/
theorem DescribesWhole.mode_makes {schema modeValue path : Value}
    (h : DescribesWhole catalog config schema modeValue path) (settings : Settings) : ∃ mode,
      (modeValue = .null ∧ mode = settings.defaultMode ∨ modeValue ≠ .null ∧
        Mode.parse modeValue = .ok mode) ∧
      ∀ {next : Mode → Build Validator} {v : Validator}, (next mode).Makes v →
        (if (option config "mode" .null).isTruthy then do
          next (← Build.ofExcept (Mode.parse (option config "mode" .null)))
        else do next (← pure settings.defaultMode)).Makes v := by
  rcases h.mode with ⟨hfalsy, rfl⟩ | ⟨htruthy, rfl, mode, hparse⟩
  · refine ⟨settings.defaultMode, .inl ⟨rfl, rfl⟩, fun hnext => ?_⟩
    simp only [hfalsy, Bool.false_eq_true, ↓reduceIte]
    exact (Build.Makes.pure _).bind hnext
  · refine ⟨mode, .inr ⟨?_, hparse⟩, fun hnext => ?_⟩
    · intro hnull
      rw [hnull] at htruthy
      cases htruthy
    · simp only [htruthy, ↓reduceIte]
      exact (Build.Makes.ofExcept hparse).bind hnext

/-- The fields of a blueprint are among the values that the depth of the walk is told from. -/
theorem fieldCountOfAll?_fields {items : List Value}
    (h : (Value.map config).fieldCount?.isSome = true)
    (hitems : (option config "fields" (.list [])).sequence? = some items) :
    ∃ n, Value.fieldCountOfAll? items = some n ∧ 3 * n + 1 ≤ depthBound config := by
  obtain ⟨n, hn⟩ := Option.isSome_iff_exists.1 h
  have hnodes := Value.fieldCount?_le_nodes hn
  obtain ⟨k, hk, rfl⟩ := Value.fieldCount?_map.1 hn
  unfold depthBound
  cases hfields : Value.lookup (.text "fields") config with
  | none =>
    rw [option, hfields] at hitems
    cases hitems
    exact ⟨0, rfl, by omega⟩
  | some fields =>
    rw [option, hfields] at hitems
    obtain ⟨l, hl, hle⟩ := Value.fieldCount?_lookup (fun _ => leadsOn_fields) hfields hk
    exact ⟨l, Value.fieldCountOfAll?_sequence? hitems hl, by omega⟩

/-- A blueprint builds a rewording of what the schema that it describes compiles to. -/
theorem DescribesWhole.twin (hs : settings.HasTexts) {schema modeValue path message : Value}
    (h : DescribesWhole catalog config schema modeValue path) (ht : schema.isTyped = true)
    (hm : message.isMessage = true) :
    ∃ v u, (build catalog settings config).Makes v ∧
      (Schema.compile schema modeValue path message settings).Makes u ∧
      Step.Reworded v.step u.step ∧
      u.step.bareKind? = none := by
  obtain ⟨mode, hmode, hread⟩ := h.mode_makes settings
  obtain ⟨members, hlists, hmembers, rfl⟩ := h.fields
  obtain ⟨rfl, segments, hsegments⟩ := h.path
  obtain ⟨items, hitems, hconfigs⟩ := hlists.items
  obtain ⟨n, hn, hfuel⟩ := fieldCountOfAll?_fields h.finite hitems
  obtain ⟨text, htext⟩ := Build.Makes.plain h.name
  have htwins : ∀ m ∈ members, HasTwin catalog settings mode m.config m.node := by
    simp only [Member.schemaOf, Value.isTyped, Value.everywhere, Bool.true_and,
      Value.everywhereEntries_iff, List.forall_mem_map] at ht
    exact fun m hm => (hmembers m hm).twin hs (ht m hm).2
  have hdistinct : (([] : List (Value × Value)).map Prod.fst ++ members.map Member.name).Pairwise
      fun a b => a.same b = false := hlists.distinct
  obtain ⟨twins, htwin, hbuilt, hcompiled⟩ :=
    buildFields_makes hconfigs hn hfuel hlists.named hdistinct htwins
  have hown := Value.isMessage_of_isTemplate (Value.orElse_isTemplate h.message hs.message)
  have hgiven := Value.isMessage_of_isTemplate (Value.orElse_isTemplate hm hs.message)
  have hnested :
    (compileNode mode settings (option config "message" .null) (.map (Twin.fields twins))).Makes
      ⟨.object, .fields mode ((option config "message" .null).orElse settings.message)
        (twins.map fun t => (t.key, t.built.step))⟩ := compileNode_map htwin.compileFields_makes
  refine ⟨Schema.under segments ⟨.object, .fields mode _
    (twins.map fun t => (t.key, t.built.step))⟩, _, ?_, compile_makes hmode hsegments
      (compileNode_map hcompiled), reworded_under (htwin.record hown hgiven),
    bareKind?_under segments _⟩
  unfold build
  refine (Build.Makes.ofExcept h.names).bind (hread (htext.bind ((Build.Makes.log _ _).bind ?_)))
  refine (Build.Makes.ofFault (iterate_of_sequence? hitems)).bind (hbuilt.bind ?_)
  exact compile_makes (.inr ⟨mode_ne_null mode, rfl⟩) hsegments hnested

/-- A record under a path is tame as it stands. -/
theorem compile_contained {schema modeValue path message : Value} {u : Validator} {w : World}
    {args : List Value} (hs : settings.HasTexts) (ht : schema.isTyped = true)
    (hn : schema.isTameNode false = true) (hm : message.isMessage = true)
    (hu : (Schema.compile schema modeValue path message settings).Makes u)
    (hbare : u.step.bareKind? = none) (hw : w.NeverCancels) (hrun : u.staysWritable w args = true) :
    Contained false (u.call w args).outcome := by
  refine Validator.contained_outcome hw (.compile ht hn hs hm ⟨[], hu []⟩) hrun ?_
  rw [hbare]
  rfl

/-- Of a rewording of what its schema compiles to, the judgements of a blueprint are promised alike,
and both come to the same answer or to the same leaves. -/
theorem DescribesWhole.judgements {schema modeValue path message : Value} (hs : settings.HasTexts)
    (h : DescribesWhole catalog config schema modeValue path) (ht : schema.isTyped = true)
    (hm : message.isMessage = true) {v u : Validator}
    (hu : (Schema.compile schema modeValue path message settings).Makes u)
    (hreworded : Step.Reworded v.step u.step) (hbare : u.step.bareKind? = none) {w : World}
    {args : List Value} (hw : w.NeverCancels) (hrun : u.staysWritable w args = true) :
    (v.call w args).isPromised = (u.call w args).isPromised ∧
      ((∃ answer, (v.call w args).settle.2 = .ok answer ∧ (u.call w args).settle.2 = .ok answer) ∨
        ∃ f g, (v.call w args).settle.2 = .error (.failure f) ∧
          (u.call w args).settle.2 = .error (.failure g) ∧ f.leaves = g.leaves) := by
  have hn : schema.isTameNode false = true := by
    obtain ⟨members, -, -, rfl⟩ := h.fields
    rfl
  have hcontained := compile_contained hs ht hn hm hu hbare hw hrun
  have hmatches : (v.call w args).Matches (u.call w args) := by
    simp only [Validator.staysWritable, Bool.and_eq_true] at hrun
    unfold Validator.call
    refine hreworded.program_matches hw _ ?_ (hreworded.staysWritable_eq _ ▸ hrun.2)
    split
    · rfl
    · exact hrun.1
  simp only [Call.settle_snd]
  exact ⟨hmatches.promised, hmatches.outcome.answers_or_leaves hcontained⟩

end

/-! ## Signing up

A blueprint with a nested record, a field that need not be there, and a list of items that refer to
a validator of the catalog, which answers later. -/

namespace Signup

/-- What refuses everything, one pause later. -/
def refuser : Validator := ⟨.any, .guarded (.call (.function ⟨0⟩)) (.text "custom")⟩

def world : World :=
  .ofRoutines [⟨.raise (.fault (.raised "ValueError" "no tag")), none, some 1⟩]
    (.ofDate ⟨2024, 1, 1⟩)

def catalog : Catalog := ⟨"validators", [(.text "tag", refuser)]⟩

/-- A map with texts as keys. -/
def entries (named : List (String × Value)) :
    List (Value × Value) := named.map fun (k, v) => (.text k, v)

variable {named : List (String × Value)}

/-- Such a map is looked up by the texts themselves. -/
theorem lookup_entries (key : String) :
    Value.lookup (.text key) (entries named) = named.lookup key := by
  induction named with
  | nil => rfl
  | cons e named ih =>
    rw [entries, List.map_cons, Value.lookup_cons, Value.same_text, ← entries, ih, List.lookup_cons]
    by_cases h : key = e.1
    · simp [h]
    · simp [beq_eq_false_iff_ne.2 h, beq_eq_false_iff_ne.2 (Ne.symm h)]

theorem option_entries (key : String) (default : Value) :
    option (entries named) key default = (named.lookup key).getD default := by
  rw [option, lookup_entries]

theorem isOfKind_entries {type : String} {kind : Kind} (href : named.lookup "ref" = none)
    (htype : named.lookup "type" = some (.text type))
    (hkind : fieldTypes.lookup (Text.lower type) = some kind) :
    IsOfKind (entries named) kind := by
  refine ⟨?_, type, ?_, hkind⟩
  · rw [option_entries, href]
    rfl
  · rw [option_entries, htype]
    rfl

theorem isWhole_entries {type : String} {kind : Kind} (href : named.lookup "ref" = none)
    (htype : named.lookup "type" = some (.text type))
    (hkind : fieldTypes.lookup (Text.lower type) = some kind)
    (hrequired : named.lookup "required" = none) (hchecks : named.lookup "checks" = none)
    (hmessage : ((named.lookup "message").getD .null).isMessage = true) :
    IsWhole (entries named) kind := by
  refine ⟨isOfKind_entries href htype hkind, ?_, ?_, ?_⟩
  · rw [option_entries, hrequired]
    rfl
  · rw [option_entries, hchecks]
    rfl
  · rwa [option_entries]

def age : List (Value × Value) :=
  entries [("name", .text "age"), ("type", .text "Integer"), ("required", .bool false),
    ("default", .int 30), ("checks", .list
      [.map (entries [("type", .text "min"), ("value", .int 18)])])]

def person : List (Value × Value) :=
  entries [("name", .text "person"), ("type", .text "object"), ("message", .text "Nobody"),
    ("fields", .list [.map age])]

def tags : List (Value × Value) :=
  entries [("name", .text "tags"), ("type", .text "array"),
    ("items", .map (entries [("ref", .text "tag")]))]

def config : List (Value × Value) :=
  entries [("mode", .text "strict"), ("path", .list [.text "form"]),
    ("fields", .list [.map person, .map tags])]

/-- A whole number from eighteen on. -/
def grown : Validator :=
  (Validator.create .integer .null).bound .atLeast (.int 18) .null
    "greater than or equal to" "on or after"

def schema : Value :=
  .map (entries [("person", .map (entries [("age", .ofValidator (grown.optional (.int 30)))])),
    ("tags", .list [.ofValidator refuser])])

def input : Value :=
  .map (entries [("person", .map (entries [("age", .int 3)])),
    ("tags", .list [.text "new"]), ("more", .null)])

theorem age_describes :
    Describes (some catalog) age (.ofValidator (grown.optional (.int 30))) := by
  have hkind : IsOfKind age .integer := isOfKind_entries rfl rfl rfl
  have hmin : Checked (.map (entries [("type", .text "min"), ("value", .int 18)]))
      (Validator.create .integer .null) grown := by
    have hconfig : (Value.map (entries [("type", .text "min"), ("value", .int 18)])).entries? =
        some (entries [("type", .text "min"), ("value", .int 18)]) := rfl
    have hmethod : checkTypes.lookup (Text.lower "min") = some (Method.min, ["value"]) := rfl
    refine .intro hconfig ?_ hmethod ?_ fun _ => ?_
    · rw [option_entries]
      rfl
    · simp [Value.hasKey, entries, Value.same_text]
    · rw [List.map_singleton, option_entries, option_entries]
      rfl
  have hchecks : (option age "checks" (.list [])).iterate =
      .ok [.map (entries [("type", .text "min"), ("value", .int 18)])] := by
    rw [age, option_entries]
    rfl
  have hleaf : Describes (some catalog) age (.ofValidator (orDefault age grown)) :=
    .leaf (.type hkind (fun h => by cases h) (fun h => by cases h)) hchecks
      (.cons hmin (.nil grown))
  have hdefault : orDefault age grown = grown.optional (.int 30) := by
    rw [orDefault, age, option_entries, option_entries]
    rfl
  rwa [hdefault] at hleaf

theorem person_describes : Describes (some catalog) person
    (.map (entries [("age", .ofValidator (grown.optional (.int 30)))])) := by
  have hwhole : IsWhole person .object := isWhole_entries rfl rfl rfl rfl rfl rfl
  have hfields : Value.lookup (.text "fields") person = some (.list [.map age]) :=
    lookup_entries "fields"
  have hname : (Member.mk age (.ofValidator (grown.optional (.int 30)))).name = .text "age" :=
    option_entries "name" .null
  have hlists : Lists (.list [.map age]) [⟨age, .ofValidator (grown.optional (.int 30))⟩] := by
    refine ⟨⟨[.map age], rfl, rfl⟩, ?_, List.pairwise_singleton _ _⟩
    rw [List.forall_mem_singleton, hname]
    exact ⟨rfl, rfl, rfl⟩
  have hrecord : Describes (some catalog) person
      (Member.schemaOf [⟨age, .ofValidator (grown.optional (.int 30))⟩]) :=
    .record hwhole hfields hlists (List.forall_mem_singleton.2 age_describes)
  rw [Member.schemaOf, List.map_singleton, hname] at hrecord
  exact hrecord

theorem tags_describes : Describes (some catalog) tags (.list [.ofValidator refuser]) := by
  have hwhole : IsWhole tags .array := isWhole_entries rfl rfl rfl rfl rfl rfl
  have hitems : Value.lookup (.text "items") tags = some (.map (entries [("ref", .text "tag")])) :=
    lookup_entries "items"
  have href : option (entries [("ref", .text "tag")]) "ref" .null = .text "tag" :=
    option_entries "ref" .null
  have hfound : catalog.find? (.text "tag") = some refuser := by
    simp [Catalog.find?, catalog, Value.same_text]
  have hstart : Starts (some catalog) (entries [("ref", .text "tag")]) refuser :=
    .reference (by rw [href]; rfl) (by rw [href]; rfl) rfl (by rw [href, hfound])
  have hchecks :
    (option (entries [("ref", .text "tag")]) "checks" (.list [])).iterate = .ok [] := by
    rw [option_entries]
    rfl
  have hleaf : Describes (some catalog) (entries [("ref", .text "tag")])
      (.ofValidator (orDefault (entries [("ref", .text "tag")]) refuser)) :=
    .leaf hstart hchecks (.nil refuser)
  have hdefault : orDefault (entries [("ref", .text "tag")]) refuser = refuser := by
    rw [orDefault, option_entries]
    rfl
  rw [hdefault] at hleaf
  exact .items hwhole hitems rfl hleaf

theorem config_describes :
    DescribesWhole (some catalog) config schema (.text "strict") (.list [.text "form"]) := by
  let members : List Member :=
    [⟨person, .map (entries [("age", .ofValidator (grown.optional (.int 30)))])⟩,
      ⟨tags, .list [.ofValidator refuser]⟩]
  have hperson : option person "name" .null = .text "person" := option_entries "name" .null
  have htags : option tags "name" .null = .text "tags" := option_entries "name" .null
  have hnames : members.map Member.name = [.text "person", .text "tags"] := by
    simp only [members, List.map_cons, List.map_nil, Member.name, hperson, htags]
  have hfields : option config "fields" (.list []) = .list [.map person, .map tags] :=
    option_entries "fields" (.list [])
  have hmode : option config "mode" .null = .text "strict" := option_entries "mode" .null
  have hpath : option config "path" (.list []) = .list [.text "form"] :=
    option_entries "path" (.list [])
  have hlists : Lists (option config "fields" (.list [])) members := by
    rw [hfields]
    refine ⟨⟨[.map person, .map tags], rfl, rfl⟩, ?_, ?_⟩
    · have hall : ∀ name ∈ members.map Member.name, name.isTruthy = true ∧ name.unhashable? = none ∧
          name.isWritable = true := by
        rw [hnames, List.forall_mem_cons, List.forall_mem_singleton]
        exact ⟨⟨rfl, rfl, rfl⟩, rfl, rfl, rfl⟩
      exact List.forall_mem_map.1 hall
    · rw [hnames, List.pairwise_pair, Value.same_text]
      rfl
  have hmembers : ∀ m ∈ members, Describes (some catalog) m.config m.node :=
    List.forall_mem_cons.2 ⟨person_describes, List.forall_mem_singleton.2 tags_describes⟩
  have hschema : schema = Member.schemaOf members := by
    rw [Member.schemaOf, List.map_cons, List.map_singleton, Member.name,
      Member.name, hperson, htags]
    rfl
  exact {
    names := by simp [Build.requireNames, config, entries, Value.same_text, Value.asText?]
    name := by
      rw [config, option_entries]
      rfl
    message := by
      rw [config, option_entries]
      rfl
    mode := .inr ⟨by rw [hmode]; rfl, hmode.symm, .strict, rfl⟩
    path := ⟨hpath.symm, [.text "form"], rfl⟩
    finite := by decide +kernel
    fields := ⟨members, hlists, hmembers, hschema⟩ }

/-- What the schema compiles to, but for the path. -/
def compiled : Validator :=
  ⟨.object, .fields .strict Settings.default.message
    [(.text "person", .fields .strict (.text (Schema.memberMessage "person"))
        [(.text "age", (grown.optional (.int 30)).step)]),
      (.text "tags", ((Validator.create .array .null).andThen
        (.elements (.text (Schema.memberMessage "tags")) refuser.step)).step)]⟩

/-- The number of leaves of a failure, where a judgement comes to one. -/
def leafCount? (x : Except Raised Value) : Option Nat :=
  match x with
  | .error (.failure f) => some f.leaves.length
  | _ => none

theorem schema_compiles :
    (Schema.compile schema (.text "strict") (.list [.text "form"]) .null .default).Makes
      (Schema.under [.text "form"] compiled) := by
  have hmode : Value.text "strict" ≠ .null := by
    intro h
    cases h
  have hpath : (Value.list [.text "form"]).iterate = .ok [.text "form"] := rfl
  have hnode : (compileNode .strict .default .null schema).Makes compiled := fun _ => rfl
  exact compile_makes (.inr ⟨hmode, rfl⟩) hpath hnode

theorem compiled_stays :
    (Schema.under [.text "form"] compiled).staysWritable world [input] = true := by
  decide +kernel

/-- What agrees with the judgement of the schema is a failure with three leaves. -/
theorem three_leaves {x : Except Raised Value} (h :
    (∃ answer, x = .ok answer ∧
      ((Schema.under [.text "form"] compiled).call world [input]).settle.2 = .ok answer) ∨
      ∃ f g, x = .error (.failure f) ∧
        ((Schema.under [.text "form"] compiled).call world [input]).settle.2 = .error (.failure g) ∧
        f.leaves = g.leaves) :
    ∃ f g, x = .error (.failure f) ∧
      ((Schema.under [.text "form"] compiled).call world [input]).settle.2 = .error (.failure g) ∧
      f.leaves = g.leaves ∧ g.leaves.length = 3 := by
  have hcount : leafCount? ((Schema.under [.text "form"] compiled).call world [input]).settle.2 =
    some 3 := by
    decide +kernel
  rcases h with ⟨answer, -, hanswer⟩ | ⟨f, g, hf, hg, hleaves⟩
  · rw [hanswer] at hcount
    cases hcount
  · rw [hg] at hcount
    exact ⟨f, g, hf, hg, hleaves, Option.some.inj hcount⟩

theorem world_neverCancels : world.NeverCancels := World.ofRoutines_neverCancels (by simp)

end Signup

end Blueprint

end Attest
