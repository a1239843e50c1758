import Attest.Proofs.Chains
import Attest.Proofs.Described
import Attest.Proofs.Members

/-!
# Nested fields

What the fields of a blueprint are built into, however they are nested: each begins with a record of
its own fields, with a list of its items, or with what else its type or its reference stands for. So
the validator of the whole judges a part of the value by the record of a field that is described
deep inside.

* `buildFields_yields`, `IsOfKind.buildField_yields`, `build_yields`: what was built from what.
* `Blueprint.Leads`, `Leads.judges`: where in a value a field that is described inside another one
  judges.
* `Blueprint.Reaches`, `Reaches.judges`: the same of a record without a message of its own.
-/

namespace Attest

open Schema (memberMessage compileNode IsField)

namespace Blueprint

section
variable {s : Setting} {k : String} {w : World} {config : List (Value × Value)}

/-- A field of a blueprint as it stands in the schema of its record. -/
structure IsBuilt (s : Setting) (field : Value) (entry : Value × Value) : Prop where
  intro ::
  built : ∃ config fuel v, field.entries? = some config ∧
    entry = (option config "name" .null, .ofValidator v) ∧
    (buildField s fuel config (option config "name" .null)).Yields v

theorem configOf_yields {v : Value} (h : (configOf v).Yields config) :
    v.entries? = some config := by
  unfold configOf at h
  split at h
  · next hentries =>
    rw [hentries, h.pure]
  · exact h.throw.elim
  · exact h.throw.elim

theorem nameOf_yields {earlier : List (Value × Value)} {name : Value}
    (h : (nameOf config earlier).Yields name) :
    name = option config "name" .null := by
  unfold nameOf at h
  simp only at h
  split at h
  · obtain ⟨_, h, -⟩ := h.bind
    exact h.throw.elim
  · split at h
    · exact h.throw.elim
    · split at h
      · obtain ⟨_, -, h⟩ := h.bind
        obtain ⟨_, h, -⟩ := h.bind
        exact h.throw.elim
      · exact h.pure

theorem buildFields_yields :
    ∀ {fuel : Nat} {fields : List Value} {earlier result : List (Value × Value)},
    (buildFields s fuel fields earlier).Yields result →
    ∃ entries, result = earlier ++ entries ∧ List.Forall₂ (IsBuilt s) fields entries
  | 0, _, _, _, h => by
    rw [buildFields] at h
    exact h.throw.elim
  | fuel + 1, [], earlier, result, h => by
    rw [buildFields] at h
    exact ⟨[], by rw [h.pure, List.append_nil], .nil⟩
  | fuel + 1, field :: rest, earlier, result, h => by
    rw [buildFields] at h
    obtain ⟨config, hconfig, h⟩ := h.bind
    obtain ⟨name, hname, h⟩ := h.bind
    obtain ⟨v, hv, h⟩ := h.bind
    obtain rfl := nameOf_yields hname
    obtain ⟨entries, rfl, hentries⟩ := buildFields_yields h
    refine ⟨_ :: entries, ?_, .cons ⟨config, fuel, v, configOf_yields hconfig, rfl, hv⟩ hentries⟩
    rw [List.append_assoc, List.singleton_append]

/-- A record that a list of fields is built into, with a message of its own. -/
def RecordOf (s : Setting) (fields message : Value) (record : Validator) : Prop :=
  ∃ fuel list nested, fields.iterate = .ok list ∧ (buildFields s fuel list []).Yields nested ∧
    (Schema.compile (.map nested) (.mode s.mode) (.list []) message s.settings).Yields record

theorem IsOfKind.kindOf_yields {kind kind' : Kind} (h : IsOfKind config kind) {name : Value}
    (hkind : (kindOf config name).Yields kind') : kind' = kind := by
  obtain ⟨type, htype, hlookup⟩ := h.type
  unfold kindOf at hkind
  obtain ⟨lower, hlower, hkind⟩ := hkind.bind
  obtain ⟨text, htext, hlower⟩ := hlower.bind
  obtain rfl : type = text := Except.ok.inj (htype.symm.trans htext.ofFault)
  rw [hlower.pure, hlookup] at hkind
  exact hkind.pure

/-- The validator of a field that refers to no other one begins with the one of its type. -/
theorem IsOfKind.buildField_yields {kind : Kind} (h : IsOfKind config kind)
    {fuel : Nat} {name : Value} {u : Validator} (hu : (buildField s fuel config name).Yields u) :
    ∃ fuel' v, (buildTyped s fuel' config name kind).Yields v ∧ Step.Extends v.step u.step := by
  cases fuel with
  | zero =>
    rw [buildField] at hu
    exact hu.throw.elim
  | succ fuel =>
    rw [buildField] at hu
    simp only [h.noReference, Bool.false_eq_true, ↓reduceIte] at hu
    obtain ⟨kind', hkind, hu⟩ := hu.bind
    obtain ⟨v, hv, hu⟩ := hu.bind
    rw [h.kindOf_yields hkind] at hv
    exact ⟨fuel, v, hv, finish_lengthens config name v u hu⟩

/-- A field with fields of its own is built into their record. -/
theorem buildTyped_record {fields name : Value} {fuel : Nat} {v : Validator}
    (hfields : Value.lookup (.text "fields") config = some fields)
    (hv : (buildTyped s fuel config name .object).Yields v) :
    ∃ text, name.plain = .ok text ∧
      RecordOf s fields (option config "message" (.text (memberMessage text))) v := by
  cases fuel with
  | zero =>
    rw [buildTyped] at hv
    exact hv.throw.elim
  | succ fuel =>
    unfold buildTyped at hv
    rw [hfields] at hv
    obtain ⟨list, hlist, hv⟩ := hv.bind
    obtain ⟨nested, hnested, hv⟩ := hv.bind
    obtain ⟨text, htext, hv⟩ := hv.bind
    exact ⟨text, htext.ofFault, fuel, list, nested, hlist.ofFault, hnested, hv⟩

/-- A field with a description of its items is built into a list of them. What the list says is the
message of the field, or the default of all settings. -/
theorem buildTyped_list {items name : Value} {fuel : Nat} {v : Validator}
    (hitems : Value.lookup (.text "items") config = some items)
    (hv : (buildTyped s fuel config name .array).Yields v) :
    ∃ text config' fuel' element, name.plain = .ok text ∧ items.entries? = some config' ∧
      (buildField s fuel' config' (.text (text ++ "[]"))).Yields element ∧
      v.step = .andThen (.coerce .array .null)
        (.elements ((option config "message" .null).orElse Settings.default.arrayMessage)
          element.step) := by
  cases fuel with
  | zero =>
    rw [buildTyped] at hv
    exact hv.throw.elim
  | succ fuel =>
    unfold buildTyped at hv
    rw [hitems] at hv
    obtain ⟨text, htext, hv⟩ := hv.bind
    obtain ⟨config', hconfig, hv⟩ := hv.bind
    obtain ⟨element, helement, hv⟩ := hv.bind
    obtain ⟨compiled, hcompiled, hv⟩ := hv.bind
    obtain ⟨mode, segments, node, -, hsegments, hnode, rfl⟩ := Schema.compile_yields_node hcompiled
    obtain rfl : [] = segments := Except.ok.inj hsegments
    rw [compileNode] at hnode
    · obtain rfl : element = node := Except.ok.inj hnode.ofExcept
      rw [hv.pure]
      exact ⟨text, config', fuel, element, htext.ofFault, configOf_yields hconfig, helement, rfl⟩
    all_goals exact nofun

/-- Whether a value describes the field of a key. -/
def isFieldOf (key field : Value) : Bool :=
  match field.entries? with
  | some config => (option config "name" .null).same key
  | none => false

/-- The field of a list that a key falls under, and an item of a value that stands under the key. -/
structure FieldAt (fields v key item : Value) (config : List (Value × Value)) : Prop where
  field : ∃ list field, fields.iterate = .ok list ∧ list.find? (isFieldOf key) = some field ∧
    field.entries? = some config
  item : ∃ input, v.entries? = some input ∧ (key, item) ∈ input

/-- The fields of a compiled record are those of the blueprint. -/
theorem FieldAt.judges {fields v key x : Value} {list : List Value} {fuel : Nat}
    {nested : List (Value × Value)} {mode : Mode} {compiled : List (Value × Step)}
    (h : FieldAt fields v key x config) (hlist : fields.iterate = .ok list)
    (hnested : (buildFields s fuel list []).Yields nested)
    (hcompiled : List.Forall₂ (IsField mode s.settings) nested compiled) (message : Value) :
    ∃ fuel' field, (buildField s fuel' config (option config "name" .null)).Yields field ∧
      ∀ {part : Step} {item : Value} {trail : Trail}, Step.Judges w part item field.step x trail →
        Step.Judges w part item (.fields mode message compiled) v (Trail.ofKey key ++ trail) := by
  obtain ⟨list', field, hlist', hfind, hconfig⟩ := h.field
  obtain ⟨input, hinput, hmem⟩ := h.item
  obtain rfl : list = list' := Except.ok.inj (hlist.symm.trans hlist')
  obtain ⟨entries, rfl, hentries⟩ := buildFields_yields hnested
  obtain ⟨entry, hentry, config', fuel', v', hconfig', rfl, hv'⟩ :=
    exists_find?_of_forall₂ (q := fun e => e.1.same key) hentries (fun field entry hbuilt => by
      obtain ⟨config, fuel, v, hconfig, rfl, -⟩ := hbuilt
      simp only [isFieldOf, hconfig]) hfind
  obtain rfl : config = config' := Option.some.inj (hconfig.symm.trans hconfig')
  obtain ⟨name, member, -, hmember, hfield⟩ := Schema.field_of_find? hcompiled hentry
  rw [Value.ofValidator, compileNode] at hmember
  · obtain rfl : v' = member := Except.ok.inj hmember.ofExcept
    exact ⟨fuel', v', hv', .field hinput (Fields.mem_working_of_mem hmem) hfield⟩
  all_goals exact nofun

/-- Where a field judges a part of a value by another field: the field is the one that is described,
or one of its fields leads there, or its items do. -/
inductive Leads (target : Value) (described : List (Value × Value)) (item : Value) :
    Value → List (Value × Value) → Value → Trail → Prop
  | here : Leads target described item target described item []
  | field {config config' : List (Value × Value)} {name nested v key x : Value} {trail : Trail} :
      IsOfKind config .object → Value.lookup (.text "fields") config = some nested →
      FieldAt nested v key x config' → Leads target described item
        (option config' "name" .null) config' x trail →
      Leads target described item name config v (Trail.ofKey key ++ trail)
  | element {config config' : List (Value × Value)} {name items v x : Value} {text : String}
      {elements : List Value} {i : Nat} {trail : Trail} : IsOfKind config .array →
      Value.lookup (.text "items") config = some items → items.entries? = some config' →
      name.plain = .ok text → v.sequence? = some elements → elements[i]? = some x →
      Leads target described item (.text (text ++ "[]")) config' x trail →
      Leads target described item name config v (.int i :: trail)

/-- What a field is built into judges the value by what the other field is built into. -/
theorem Leads.judges {target item name v : Value} {described : List (Value × Value)} {trail : Trail}
    (h : Leads target described item name config v trail) : ∀ {fuel : Nat} {u : Validator},
      (buildField s fuel config name).Yields u →
        ∃ fuel' member, (buildField s fuel' described target).Yields member ∧
          Step.Judges w member.step item u.step v trail := by
  induction h with
  | here => exact fun {fuel u} hu => ⟨fuel, u, hu, .here⟩
  | field hkind hfields hat _ ih =>
    intro fuel u hu
    obtain ⟨fuel', record, hrecord, hextends⟩ := hkind.buildField_yields hu
    obtain ⟨text, -, fuel'', list, nested, hlist, hnested, hcompiled⟩ :=
      buildTyped_record hfields hrecord
    obtain ⟨mode, segments, compiled, -, hsegments, hfields', rfl⟩ :=
      Schema.compile_map_yields hcompiled
    obtain rfl : [] = segments := Except.ok.inj hsegments
    obtain ⟨_, field, hfield, hjudges⟩ := hat.judges hlist hnested hfields' _
    obtain ⟨_, member, hmember, hpart⟩ := ih hfield
    obtain ⟨input, hinput, -⟩ := hat.item
    exact ⟨_, member, hmember, (hjudges hpart).extends hextends
      (Value.isNullish_of_entries? hinput)⟩
  | element hkind hitems hconfig hname hsequence hi _ ih =>
    intro fuel u hu
    obtain ⟨fuel', v', hv', hextends⟩ := hkind.buildField_yields hu
    obtain ⟨text, config', _, element, htext, hconfig', helement, hstep⟩ :=
      buildTyped_list hitems hv'
    obtain rfl := Except.ok.inj (hname.symm.trans htext)
    obtain rfl := Option.some.inj (hconfig.symm.trans hconfig')
    obtain ⟨_, member, hmember, hpart⟩ := ih helement
    rw [hstep] at hextends
    exact ⟨_, member, hmember, (Schema.element_judges hsequence hi hpart).extends hextends
      (Value.isNullish_of_sequence? hsequence)⟩

/-- Where the record of a field without a message of its own judges a part of a value: the field is
the one that is described, or one of its fields, or describes its items. -/
inductive Reaches (k : String) (fields item : Value) :
    Value → List (Value × Value) → Value → Trail → Prop
  | here {config : List (Value × Value)} : IsOfKind config .object →
      Value.lookup (.text "fields") config = some fields →
      Value.lookup (.text "message") config = none →
      Reaches k fields item (.text k) config item []
  | field {config config' : List (Value × Value)} {name nested v key x : Value} {trail : Trail} :
      IsOfKind config .object → Value.lookup (.text "fields") config = some nested →
      FieldAt nested v key x config' → Reaches k fields item
        (option config' "name" .null) config' x trail →
      Reaches k fields item name config v (Trail.ofKey key ++ trail)
  | element {config config' : List (Value × Value)} {name items v x : Value} {text : String}
      {elements : List Value} {i : Nat} {trail : Trail} : IsOfKind config .array →
      Value.lookup (.text "items") config = some items → items.entries? = some config' →
      name.plain = .ok text → v.sequence? = some elements → elements[i]? = some x →
      Reaches k fields item (.text (text ++ "[]")) config' x trail →
      Reaches k fields item name config v (.int i :: trail)

/-- A record that is reached is led to, and has no message of its own. -/
theorem Reaches.leads {fields item name v : Value} {trail : Trail}
    (h : Reaches k fields item name config v trail) :
    ∃ described, IsOfKind described .object ∧
    Value.lookup (.text "fields") described = some fields ∧
      Value.lookup (.text "message") described = none ∧
      Leads (.text k) described item name config v trail := by
  induction h with
  | here hkind hfields hmessage => exact ⟨_, hkind, hfields, hmessage, .here⟩
  | field hkind hfields hat _ ih =>
    obtain ⟨described, hdescribed, hnested, hmessage, hleads⟩ := ih
    exact ⟨described, hdescribed, hnested, hmessage, .field hkind hfields hat hleads⟩
  | element hkind hitems hconfig hname hsequence hi _ ih =>
    obtain ⟨described, hdescribed, hnested, hmessage, hleads⟩ := ih
    exact ⟨described, hdescribed, hnested, hmessage, .element hkind hitems hconfig hname
      hsequence hi hleads⟩

/-- What a field is built into judges the value by what the field without a message is built
into. -/
theorem Reaches.judges {fields item name v : Value} {trail : Trail}
    (h : Reaches k fields item name config v trail) {fuel : Nat} {u : Validator}
    (hu : (buildField s fuel config name).Yields u) :
    ∃ member, RecordOf s fields (.text (memberMessage k)) member ∧
      (item.isNullish = false → Step.Judges w member.step item u.step v trail) := by
  obtain ⟨described, hkind, hfields, hmessage, hleads⟩ := h.leads
  obtain ⟨fuel', whole, hwhole, hjudges⟩ := hleads.judges hu
  obtain ⟨_, member, hmember, hextends⟩ := hkind.buildField_yields hwhole
  obtain ⟨text, htext, hrecord⟩ := buildTyped_record hfields hmember
  obtain rfl : k = text := Except.ok.inj htext
  rw [option, hmessage] at hrecord
  refine ⟨member, hrecord, fun hitem => ?_⟩
  rw [← List.append_nil trail]
  exact (Step.Judges.here.extends hextends hitem).trans hjudges

/-- The mode of a blueprint: null, or anything that counts as false, is the one of the settings. -/
def modeOf (settings : Settings) (config : List (Value × Value)) : Except Raised Mode :=
  let mode := option config "mode" .null
  if mode.isTruthy then Mode.parse mode else .ok settings.defaultMode

/-- What a blueprint is built into is the record of its fields, below its path. -/
theorem build_yields {catalog : Option Catalog} {settings : Settings} {u : Validator}
    (hu : (build catalog settings config).Yields u) :
    ∃ mode list nested, modeOf settings config = .ok mode ∧
      (option config "fields" (.list [])).iterate = .ok list ∧
      (buildFields ⟨catalog, settings, mode⟩ (depthBound config) list []).Yields nested ∧
      (Schema.compile (.map nested) (.mode mode) (option config "path" (.list []))
        (option config "message" .null) settings).Yields u := by
  have hrest : ∀ mode : Mode, modeOf settings config = .ok mode → (do
      let name ← Build.plain (option config "name" (.text "unnamed_struct"))
      Build.log .info ("Creating struct validator: " ++ name)
      let fields ← Build.ofFault (option config "fields" (.list [])).iterate
      let schema ← buildFields ⟨catalog, settings, mode⟩ (depthBound config) fields []
      Schema.compile (.map schema) (.mode mode) (option config "path" (.list []))
        (option config "message" .null) settings : Build Validator).Yields u →
      ∃ mode list nested, modeOf settings config = .ok mode ∧
        (option config "fields" (.list [])).iterate = .ok list ∧
        (buildFields ⟨catalog, settings, mode⟩ (depthBound config) list []).Yields nested ∧
        (Schema.compile (.map nested) (.mode mode) (option config "path" (.list []))
          (option config "message" .null) settings).Yields u := by
    intro mode hmode hu
    obtain ⟨_, -, hu⟩ := hu.bind
    obtain ⟨_, -, hu⟩ := hu.bind
    obtain ⟨list, hlist, hu⟩ := hu.bind
    obtain ⟨nested, hnested, hu⟩ := hu.bind
    exact ⟨mode, list, nested, hmode, hlist.ofFault, hnested, hu⟩
  unfold build at hu
  obtain ⟨_, -, hu⟩ := hu.bind
  simp only at hu
  split at hu
  · next htruthy =>
    obtain ⟨mode, hmode, hu⟩ := hu.bind
    exact hrest mode ((if_pos htruthy).trans hmode.ofExcept) hu
  · next htruthy =>
    obtain ⟨mode, hmode, hu⟩ := hu.bind
    exact hrest mode ((if_neg htruthy).trans (congrArg Except.ok hmode.pure.symm)) hu

end

end Blueprint

end Attest
