import Attest.Proofs.Agreement
import Attest.Proofs.Arguments
import Attest.Proofs.Grammar
import Attest.Proofs.Nested

/-!
# Refusals

How building ends. A blueprint of which the fields, the checks and the items have the documented
shapes is built into a validator, or it is refused with a schema mistake, or a validator that it
refers to is not in the catalog. But names, references and the arguments of checks are used before
anything is known about them, so there is a fourth end: a fault that one of them raises by itself.

* `Blueprint.HasField`, `HasShape`: the fields of a blueprint, however they are nested, and the
  documented shapes.
* `CheckObjects`, `FieldObjects`, `Objects`: the faults that are raised by what is in the
  containers.
* `buildFields_raises`, `build_raises`: whatever is raised in place of a validator, by recursion
  over the fuel.
* `build_ends`: the four ends.
-/

namespace Attest

open Build (RaisesOnly)

/-- What is no mode is refused with its text. -/
theorem Mode.parse_raises {P : Raised → Prop}
    (hschema : ∀ e : SetupError, e.kind = .schema → P (.setup e)) {v : Value}
    (hlong : v.isShort = false → P (.fault .tooManyDigits)) {r : Raised}
    (h : Mode.parse v = .error r) : P r := by
  unfold Mode.parse at h
  cases hshown : v.shown with
  | error f =>
    obtain ⟨rfl, hv⟩ := Value.shown_error hshown
    simp only [hshown] at h
    split at h
    · cases h
    · split at h
      · cases h
      · cases h
        exact hlong hv
    · cases h
      exact hlong hv
  | ok shown =>
    simp only [hshown] at h
    split at h
    · cases h
    · split at h
      · cases h
      · cases h
        exact hschema _ rfl
    · cases h
      exact hschema _ rfl

/-! ## Compiling validators -/

namespace Schema

variable {P : Raised → Prop} {mode : Mode} {settings : Settings}

/-- The entry of a record is a validator, and there is trouble with its name only over digits. -/
def IsMember (P : Raised → Prop) (entry : Value × Value) : Prop :=
  (entry.1.isShort = false → P (.fault .tooManyDigits)) ∧ ∃ v, entry.2 = .ofValidator v

theorem compileFields_raises : ∀ {entries : List (Value × Value)}, (∀ e ∈ entries, IsMember P e) →
    RaisesOnly P (compileFields mode settings entries)
  | [], _ => by
    rw [compileFields]
    exact .pure _
  | (key, node) :: rest, h => by
    obtain ⟨⟨hkey, v, rfl⟩, hrest⟩ := List.forall_mem_cons.1 h
    rw [compileFields]
    refine .bind (.plain hkey) fun name _ => ?_
    have hmember :
        (compileNode mode settings (.text (memberMessage name)) (.ofValidator v)).Makes v :=
      .ofExcept rfl
    exact .after_makes hmember (.bind (compileFields_raises hrest) fun _ _ => .pure _)

theorem compile_raises {nested : List (Value × Value)}
    (hnested : ∀ e ∈ nested, IsMember P e) {path : Value}
    (hpath : ∀ f, path.iterate = .error f → P (.fault f)) (message : Value) :
    RaisesOnly P (compile (.map nested) (.mode mode) path message settings) := by
  rw [compile_eq]
  refine .after_makes (.ofExcept rfl :
    (Build.ofExcept (modeOf settings (.mode mode))).Makes mode) ?_
  refine .bind (.ofFault hpath) fun _ _ => ?_
  rw [compileNode]
  refine .bind (.bind (compileFields_raises hnested) fun _ _ => ?_) fun _ _ => .pure _
  exact .bind (.log _ _) fun _ _ => .pure _

end Schema

theorem Validator.create_kind (kind : Kind) (message : Value) :
    (Validator.create kind message).kind = kind := by
  cases kind <;> rfl

/-- Whether a value is a list of maps, as fields and checks are written. -/
def Value.isListOfMaps (v : Value) : Bool :=
  match v.sequence? with
  | some items => items.all fun u => u.entries?.isSome
  | none => false

theorem Value.isListOfMaps_iff {v : Value} :
    v.isListOfMaps = true ↔
      ∃ items, v.sequence? = some items ∧ ∀ u ∈ items, ∃ entries, u.entries? = some entries := by
  unfold isListOfMaps
  cases v.sequence? with
  | none => simp
  | some items => simp [Option.isSome_iff_exists]

namespace Blueprint

open Schema (compileNode)

/-! ## What may be wrong with a blueprint -/

section
variable (whole : List (Value × Value))

/-- What describes a field of a blueprint, or the items of one, and what that is called. -/
inductive HasField : Value → List (Value × Value) → Prop
  | field {items : List Value} {u : Value} {config : List (Value × Value)} :
      (option whole "fields" (.list [])).iterate = .ok items → u ∈ items →
      u.entries? = some config →
      HasField (option config "name" .null) config
  | nested {name fields u : Value} {items : List Value} {outer config : List (Value × Value)} :
      HasField name outer → IsOfKind outer .object →
      Value.lookup (.text "fields") outer = some fields →
      fields.iterate = .ok items → u ∈ items → u.entries? = some config →
      HasField (option config "name" .null) config
  | items {name items : Value} {text : String} {outer config : List (Value × Value)} :
      HasField name outer → IsOfKind outer .array →
      Value.lookup (.text "items") outer = some items →
      items.entries? = some config → name.plain = .ok text → HasField (.text (text ++ "[]")) config

/-- The containers of a blueprint have the documented shapes. Nothing is said about what else is in
them. -/
structure HasShape : Prop where
  names : Build.requireNames whole = .ok ()
  fields : (option whole "fields" (.list [])).isListOfMaps = true
  nested {name fields : Value} {config : List (Value × Value)} : HasField whole name config →
    IsOfKind config .object → Value.lookup (.text "fields") config = some fields →
    fields.isListOfMaps = true
  items {name items : Value} {config : List (Value × Value)} : HasField whole name config →
    IsOfKind config .array → Value.lookup (.text "items") config = some items →
    ∃ entries, items.entries? = some entries
  checks {name : Value} {config : List (Value × Value)} : HasField whole name config →
    (option config "checks" (.list [])).isListOfMaps = true

end

/-- The faults that a check raises by itself on a validator of a kind: its type has no text, or its
arguments raise them. -/
inductive CheckObjects (kind : Kind) (check : List (Value × Value)) : Fault → Prop
  | type : (option check "type" (.text "")).isShort = false → CheckObjects kind check .tooManyDigits
  | arguments {type : String} {m : Method} {keys : List String} {f : Fault} :
      (option check "type" (.text "")).plain = .ok type →
      checkTypes.lookup (Text.lower type) = some (m, keys) →
      m.isOf kind = true → (∀ key ∈ keys, Value.hasKey (.text key) check = true) →
      Validator.Objects kind m (keys.map fun key => option check key .null) f →
      CheckObjects kind check f

section
variable (catalog : Option Catalog)

/-- The kind of what a field starts from: of the validator that it refers to, or of its type. -/
inductive HasKind (config : List (Value × Value)) : Kind → Prop
  | reference {c : Catalog} {v : Validator} :
      (option config "ref" .null).isTruthy = true → catalog = some c →
      c.find? (option config "ref" .null) = some v → HasKind config v.kind
  | type {kind : Kind} : IsOfKind config kind → HasKind config kind

/-- The faults that a field raises by itself: its name or its reference cannot be looked up or has
no text, its type has no text, or one of its checks raises them. -/
inductive FieldObjects (name : Value) (config : List (Value × Value)) : Fault → Prop
  | name {type : String} :
      name.unhashable? = some type → FieldObjects name config (.unhashable type)
  | nameDigits : name.isShort = false → FieldObjects name config .tooManyDigits
  | reference {type : String} :
      (option config "ref" .null).isTruthy = true → catalog.isSome = true →
      (option config "ref" .null).unhashable? = some type →
      FieldObjects name config (.unhashable type)
  | referenceDigits : (option config "ref" .null).isTruthy = true →
      catalog.bind (·.find? (option config "ref" .null)) = none →
      (option config "ref" .null).isShort = false → FieldObjects name config .tooManyDigits
  | typeDigits : (option config "ref" .null).isTruthy = false →
      (option config "type" (.text "string")).isShort = false →
      FieldObjects name config .tooManyDigits
  | check {kind : Kind} {checks : List Value} {u : Value}
      {check : List (Value × Value)} {f : Fault} :
      HasKind catalog config kind → (option config "checks" (.list [])).iterate = .ok checks →
      u ∈ checks →
      u.entries? = some check → CheckObjects kind check f → FieldObjects name config f

/-- The faults that a blueprint raises by itself. -/
inductive Objects (whole : List (Value × Value)) : Fault → Prop
  | name : (option whole "name" (.text "unnamed_struct")).isShort = false →
      Objects whole .tooManyDigits
  | mode : (option whole "mode" .null).isShort = false → Objects whole .tooManyDigits
  | path {f : Fault} : (option whole "path" (.list [])).iterate = .error f → Objects whole f
  | field {name : Value} {config : List (Value × Value)} {f : Fault} : HasField whole name config →
      FieldObjects catalog name config f → Objects whole f
  /-- The fields of a field lead back to the field. -/
  | endless : (Value.map whole).fieldCount? = none → Objects whole .endless

/-- A field refers to a validator that is not in the catalog. -/
def LacksReference (whole : List (Value × Value)) : Prop :=
  ∃ c name config, catalog = some c ∧ HasField whole name config ∧
    (option config "ref" .null).isTruthy = true ∧
    c.find? (option config "ref" .null) = none

/-- What is raised in place of a validator. -/
inductive Refusal (whole : List (Value × Value)) : Raised → Prop
  | schema {e : SetupError} : e.kind = .schema → Refusal whole (.setup e)
  | notFound {e : SetupError} :
      e.kind = .notFound → LacksReference catalog whole → Refusal whole (.setup e)
  | fault {f : Fault} : Objects catalog whole f → Refusal whole (.fault f)

end

/-! ## Checks -/

section
variable {P : Raised → Prop} {config : List (Value × Value)} {name : Value} {kind : Kind}

theorem checkType_raises (hschema : ∀ e : SetupError, e.kind = .schema → P (.setup e))
    {type : String} {m : Method} {keys : List String} (h : checkTypes.lookup type = some (m, keys))
    {v : Validator} (hkind : m.isOf v.kind = true) {given : String → Value}
    (hobjects : ∀ f, Validator.Objects v.kind m (keys.map given) f → P (.fault f))
    (message : Value) : RaisesOnly P (v.extend m (keys.map given) (some message)) := by
  rcases checkTypes_cases h with ⟨rfl, rfl⟩ | ⟨key, rfl, hm, hmem⟩
  · simp only [List.map_cons, List.map_nil, Validator.extend_range hkind] at hobjects ⊢
    exact Validator.range_raises hschema hobjects _
  · simp only [List.map_cons, List.map_nil, Validator.extend_one hkind hm] at hobjects ⊢
    exact Validator.extendWith_raises hschema hmem hkind hobjects _

theorem lowerName_raises {v : Value} (h : v.isShort = false → P (.fault .tooManyDigits)) :
    RaisesOnly P (lowerName v) := .bind (.plain h) fun _ _ => .pure _

theorem lowerName_yields {v : Value} {lower : String} (h : (lowerName v).Yields lower) :
    ∃ type, v.plain = .ok type ∧ lower = Text.lower type := by
  obtain ⟨type, htype, h⟩ := h.bind
  exact ⟨type, htype.ofFault, h.pure⟩

section
variable (hschema : ∀ e : SetupError, e.kind = .schema → P (.setup e))
  (hname : name.isShort = false → P (.fault .tooManyDigits))

include hschema hname

theorem applyCheck_raises {u : Value} {check : List (Value × Value)}
    (hcheck : u.entries? = some check) {v : Validator}
    (hobjects : ∀ f, CheckObjects v.kind check f → P (.fault f)) :
    RaisesOnly P (applyCheck name v u) := by
  unfold applyCheck
  refine .after_makes (configOf_makes hcheck) ?_
  refine .bind (lowerName_raises fun hlong => hobjects _ (.type hlong)) fun lower hlower => ?_
  obtain ⟨type, htype, rfl⟩ := lowerName_yields hlower
  split
  · exact .schemaError hschema _ _
  · next m keys hlookup =>
    simp only
    split
    · exact .bind (.schemaError hschema _ _) fun _ h => h.throw.elim
    · next hkind =>
      have hkind : m.isOf v.kind = true := by simpa using hkind
      split
      · exact .bind (.plain hname) fun _ _ =>
          .bind (.schemaError hschema _ _) fun _ h => h.throw.elim
      · next hgiven =>
        have hgiven : ∀ key ∈ keys, Value.hasKey (.text key) check = true := by
          simpa [List.isEmpty_iff, List.filter_eq_nil_iff] using hgiven
        refine checkType_raises hschema hlookup hkind (fun f hf => ?_) _
        exact hobjects f (.arguments htype hlookup hkind hgiven hf)

/-- The checks of a field are added one after the other, and none of them changes the kind of the
validator. -/
theorem applyChecks_raises {checks : List Value}
    (hmaps : ∀ u ∈ checks, ∃ check, u.entries? = some check)
    (hobjects : ∀ u ∈ checks, ∀ check f, u.entries? = some check →
      CheckObjects kind check f → P (.fault f))
    {v : Validator} (hkind : v.kind = kind) : RaisesOnly P (checks.foldlM (applyCheck name) v) := by
  induction checks generalizing v with
  | nil => exact .pure _
  | cons u rest ih =>
    obtain ⟨⟨check, hcheck⟩, hmaps⟩ := List.forall_mem_cons.1 hmaps
    obtain ⟨hfirst, hobjects⟩ := List.forall_mem_cons.1 hobjects
    subst hkind
    rw [List.foldlM_cons]
    exact .bind (applyCheck_raises hschema hname hcheck (hfirst check · hcheck)) fun v' hv' =>
      ih hmaps hobjects (applyCheck_links name v u v' hv').kind_eq

end

/-! ## Single fields -/

variable {catalog : Option Catalog} (hschema : ∀ e : SetupError, e.kind = .schema → P (.setup e))

include hschema

theorem nameOf_raises {built : List (Value × Value)}
    (hobjects : ∀ f, FieldObjects catalog (option config "name" .null) config f → P (.fault f)) :
    RaisesOnly P (nameOf config built) := by
  unfold nameOf
  simp only
  split
  · exact .bind (.schemaError hschema _ _) fun _ h => h.throw.elim
  · split
    · next hhash => exact .throw (hobjects _ (.name hhash))
    · split
      · refine .bind (.plain fun hlong => hobjects _ (.nameDigits hlong)) fun _ _ => ?_
        exact .bind (.schemaError hschema _ _) fun _ h => h.throw.elim
      · exact .pure _

theorem kindOf_raises (hobjects : ∀ f, FieldObjects catalog name config f → P (.fault f))
    (hreference : (option config "ref" .null).isTruthy = false) :
    RaisesOnly P (kindOf config name) := by
  refine .bind (lowerName_raises fun hlong => hobjects _ (.typeDigits hreference hlong))
    fun type _ => ?_
  split
  · exact .pure _
  · exact .schemaError hschema _ _

/-- A reference is looked up where there is a catalog, and without one it is refused. -/
theorem resolve_raises (hobjects : ∀ f, FieldObjects catalog name config f → P (.fault f))
    (hreference : (option config "ref" .null).isTruthy = true)
    (hmissing : ∀ c e, catalog = some c → c.find? (option config "ref" .null) = none →
      e.kind = SetupKind.notFound →
      P (.setup e)) :
    RaisesOnly P (resolve catalog name (option config "ref" .null)) := by
  cases catalog with
  | none =>
    refine .bind (.plain fun hlong => hobjects _ (.nameDigits hlong)) fun _ _ => ?_
    refine .bind (.plain fun hlong => hobjects _ (.referenceDigits hreference rfl hlong))
      fun _ _ => ?_
    exact .schemaError hschema _ _
  | some c =>
    have hkey : RaisesOnly P (Catalog.checkKey (option config "ref" .null)) := by
      unfold Catalog.checkKey
      split
      · next hhash => exact .throw (hobjects _ (.reference hreference rfl hhash))
      · exact .pure _
    refine .bind hkey fun _ _ => ?_
    cases hfound : c.find? (option config "ref" .null) with
    | some v => exact .pure _
    | none =>
      refine .bind (.bind (.plain fun hlong => ?_) fun _ _ => .pure _) fun r hr => .throw ?_
      · exact hobjects _ (.referenceDigits hreference hfound hlong)
      · obtain ⟨_, -, hr⟩ := hr.bind
        rw [hr.pure]
        exact hmissing c _ rfl hfound rfl

theorem finish_raises (hobjects : ∀ f, FieldObjects catalog name config f → P (.fault f))
    (hchecks : (option config "checks" (.list [])).isListOfMaps = true) {v : Validator}
    (hkind : HasKind catalog config v.kind) : RaisesOnly P (finish config name v) := by
  obtain ⟨checks, hsequence, hmaps⟩ := Value.isListOfMaps_iff.1 hchecks
  have hiterate := iterate_of_sequence? hsequence
  refine .after_makes (.ofFault hiterate) ?_
  refine .bind
    (applyChecks_raises hschema (fun hlong => hobjects _ (.nameDigits hlong)) hmaps ?_ rfl)
    fun v' _ => ?_
  · exact fun u hu check f hcheck hf => hobjects f (.check hkind hiterate hu hcheck hf)
  · split <;> exact .pure _

omit hschema in
theorem resolve_yields {ref : Value} {v : Validator} (h : (resolve catalog name ref).Yields v) :
    ∃ c, catalog = some c ∧ c.find? ref = some v := by
  cases catalog with
  | none =>
    obtain ⟨_, -, h⟩ := h.bind
    obtain ⟨_, -, h⟩ := h.bind
    exact h.throw.elim
  | some c =>
    obtain ⟨_, -, h⟩ := h.bind
    cases hfound : c.find? ref with
    | some u =>
      rw [hfound] at h
      exact ⟨c, rfl, by rw [h.pure, hfound]⟩
    | none =>
      rw [hfound] at h
      obtain ⟨_, -, h⟩ := h.bind
      exact h.throw.elim

omit hschema in
theorem kindOf_yields (h : (kindOf config name).Yields kind) :
    ∃ type, (option config "type" (.text "string")).plain = .ok type ∧
      fieldTypes.lookup (Text.lower type) = some kind := by
  obtain ⟨lower, hlower, h⟩ := h.bind
  obtain ⟨type, htype, rfl⟩ := lowerName_yields hlower
  refine ⟨type, htype, ?_⟩
  split at h
  · next hlookup => rw [hlookup, h.pure]
  · exact h.throw.elim

omit hschema in
/-- What a type is built into is of its kind. -/
theorem buildTyped_kind {s : Setting} {fuel : Nat} {v : Validator}
    (h : (buildTyped s fuel config name kind).Yields v) : v.kind = kind := by
  cases fuel with
  | zero =>
    rw [buildTyped] at h
    exact h.throw.elim
  | succ fuel =>
    unfold buildTyped at h
    split at h
    · obtain ⟨_, -, h⟩ := h.bind
      obtain ⟨_, -, h⟩ := h.bind
      obtain ⟨_, -, h⟩ := h.bind
      obtain ⟨_, segments, _, -, -, -, rfl⟩ := Schema.compile_map_yields h
      unfold Schema.under
      split <;> rfl
    · obtain ⟨_, -, h⟩ := h.bind
      obtain ⟨_, -, h⟩ := h.bind
      obtain ⟨_, -, h⟩ := h.bind
      obtain ⟨_, -, h⟩ := h.bind
      rw [h.pure]
      rfl
    · rw [h.pure]
      exact Validator.create_kind _ _

end

/-! ## Whole blueprints -/

section
variable {whole : List (Value × Value)} {s : Setting}

/-- The fuel is enough for three turns for every field that is counted and some more, unless the
fields of a field lead back to the field. -/
def IsEnough (whole : List (Value × Value)) (count : Option Nat) (more fuel : Nat) : Prop :=
  (Value.map whole).fieldCount? = none ∨ ∃ n, count = some n ∧ 3 * n + more ≤ fuel

theorem IsEnough.imp {count count' : Option Nat} {more more' fuel fuel' : Nat}
    (h : IsEnough whole count more fuel) (himp : ∀ n, count = some n → 3 * n + more ≤ fuel →
      ∃ m, count' = some m ∧ 3 * m + more' ≤ fuel') :
    IsEnough whole count' more' fuel' :=
  h.imp_right fun ⟨n, hn, hle⟩ => himp n hn hle

/-- Fuel that was enough runs out only where the fields of a field lead back to the field. -/
theorem IsEnough.endless {count : Option Nat} {more : Nat} (h : IsEnough whole count (more + 1) 0) :
    Refusal s.catalog whole (.fault .endless) := by
  rcases h with hcyclic | ⟨n, -, hle⟩
  · exact .fault (.endless hcyclic)
  · exact absurd hle (Nat.not_succ_le_zero _)

/-- The fields of a list, each of which is one of the blueprint. -/
def AreFields (whole : List (Value × Value)) (items : List Value) : Prop :=
  ∀ u ∈ items, ∃ config, u.entries? = some config ∧
    HasField whole (option config "name" .null) config

/-- What the fields are built into are members of a record. -/
theorem AreFields.members {items : List Value} {entries : List (Value × Value)}
    (h : AreFields whole items) (hbuilt : List.Forall₂ (IsBuilt s) items entries) :
    ∀ e ∈ entries, Schema.IsMember (Refusal s.catalog whole) e := by
  induction hbuilt with
  | nil => exact List.forall_mem_nil _
  | cons hentry _ ih =>
    obtain ⟨⟨config, hconfig, hfield⟩, hrest⟩ := List.forall_mem_cons.1 h
    obtain ⟨config', _, v, hconfig', rfl, -⟩ := hentry
    obtain rfl := Option.some.inj (hconfig.symm.trans hconfig')
    refine List.forall_mem_cons.2 ⟨⟨fun hlong => ?_, v, rfl⟩, ih hrest⟩
    exact .fault (.field hfield (.nameDigits hlong))

mutual

/-- The recursion is the one of the builder, over the fuel. Every field that it comes to is one of
the blueprint, so whatever the field raises the blueprint raises. -/
theorem buildFields_raises (hshape : HasShape whole) : ∀ {fuel : Nat} {items : List Value}
    {built : List (Value × Value)}, AreFields whole items →
    IsEnough whole (Value.fieldCountOfAll? items) 1 fuel →
    RaisesOnly (Refusal s.catalog whole) (buildFields s fuel items built)
  | 0, _, _, _, henough => by
    rw [buildFields]
    exact .throw henough.endless
  | _ + 1, [], _, _, _ => by
    rw [buildFields]
    exact .pure _
  | fuel + 1, u :: rest, built, hfields, henough => by
    obtain ⟨⟨config, hconfig, hfield⟩, hrest⟩ := List.forall_mem_cons.1 hfields
    have hobjects : ∀ f, FieldObjects s.catalog (option config "name" .null) config f →
        Refusal s.catalog whole (.fault f) := fun f hf => .fault (.field hfield hf)
    rw [buildFields]
    refine .after_makes (configOf_makes hconfig) ?_
    refine .bind (nameOf_raises (fun _ => .schema) hobjects) fun name hname => ?_
    obtain rfl := nameOf_yields hname
    refine .bind (buildField_raises hshape hfield (henough.imp ?_)) fun v _ =>
      buildFields_raises hshape hrest (henough.imp ?_)
    -- The map of the field is counted itself, which leaves fuel for its turns and for those of the
    -- rest.
    · intro n hn hle
      obtain ⟨a, b, ha, -, rfl⟩ := Value.fieldCountOfAll?_cons.1 hn
      obtain ⟨k, hk, rfl⟩ := Value.fieldCount?_map.1 (Value.fieldCount?_entries? hconfig ha)
      exact ⟨k, hk, by omega⟩
    · intro n hn hle
      obtain ⟨a, b, ha, hb, rfl⟩ := Value.fieldCountOfAll?_cons.1 hn
      obtain ⟨k, -, rfl⟩ := Value.fieldCount?_map.1 (Value.fieldCount?_entries? hconfig ha)
      exact ⟨b, hb, by omega⟩

theorem buildField_raises (hshape : HasShape whole) :
    ∀ {fuel : Nat} {config : List (Value × Value)} {name : Value},
    HasField whole name config → IsEnough whole (Value.fieldCountOfEntries? config) 3 fuel →
    RaisesOnly (Refusal s.catalog whole) (buildField s fuel config name)
  | 0, _, _, _, henough => by
    rw [buildField]
    exact .throw henough.endless
  | fuel + 1, config, name, hfield, henough => by
    have hobjects : ∀ f, FieldObjects s.catalog name config f →
      Refusal s.catalog whole (.fault f) :=
      fun f hf => .fault (.field hfield hf)
    have hfinish : ∀ v, HasKind s.catalog config v.kind →
        RaisesOnly (Refusal s.catalog whole) (finish config name v) :=
      fun v => finish_raises (fun _ => .schema) hobjects (hshape.checks hfield)
    rw [buildField]
    simp only
    split
    · next href =>
      refine .bind (resolve_raises (fun _ => .schema) hobjects href fun c e hc hnone hkind =>
        ?_) fun v hv => ?_
      · exact .notFound hkind ⟨c, name, config, hc, hfield, href, hnone⟩
      · obtain ⟨c, hc, hfound⟩ := resolve_yields hv
        exact hfinish v (.reference href hc hfound)
    · next href =>
      have href : (option config "ref" .null).isTruthy = false := by simpa using href
      refine .bind (kindOf_raises (fun _ => .schema) hobjects href) fun kind hkind => ?_
      have hkind : IsOfKind config kind := ⟨href, kindOf_yields hkind⟩
      have htyped : RaisesOnly (Refusal s.catalog whole) (buildTyped s fuel config name kind) :=
        buildTyped_raises hshape hfield hkind (henough.imp fun n hn hle => ⟨n, hn, by omega⟩)
      exact .bind htyped fun v hv => hfinish v (.type (buildTyped_kind hv ▸ hkind))

theorem buildTyped_raises (hshape : HasShape whole) :
    ∀ {fuel : Nat} {config : List (Value × Value)} {name : Value}
    {kind : Kind}, HasField whole name config → IsOfKind config kind →
    IsEnough whole (Value.fieldCountOfEntries? config) 2 fuel →
    RaisesOnly (Refusal s.catalog whole) (buildTyped s fuel config name kind)
  | 0, _, _, _, _, _, henough => by
    rw [buildTyped]
    exact .throw henough.endless
  | fuel + 1, config, name, kind, hfield, hkind, henough => by
    have hname : RaisesOnly (Refusal s.catalog whole) (Build.plain name) :=
      .plain fun hlong => .fault (.field hfield (.nameDigits hlong))
    unfold buildTyped
    split
    · next fields hfields =>
      obtain ⟨items, hsequence, hmaps⟩ :=
        Value.isListOfMaps_iff.1 (hshape.nested hfield hkind hfields)
      have hiterate := iterate_of_sequence? hsequence
      have hitems : AreFields whole items := fun u hu =>
        (hmaps u hu).imp fun inner hinner =>
          ⟨hinner, .nested hfield hkind hfields hiterate hu hinner⟩
      refine .after_makes (.ofFault hiterate) ?_
      refine .bind (buildFields_raises hshape hitems (henough.imp fun n hn hle => ?_))
        fun nested hnested => ?_
      · obtain ⟨l, hl, hln⟩ := Value.fieldCount?_lookup (fun _ => leadsOn_fields) hfields hn
        exact ⟨l, Value.fieldCountOfAll?_sequence? hsequence hl, by omega⟩
      · obtain ⟨entries, rfl, hentries⟩ := buildFields_yields hnested
        refine .bind hname fun _ _ => Schema.compile_raises (hitems.members hentries)
          (fun f hf => ?_) _
        cases hf
    · next items _ hitems =>
      obtain ⟨inner, hinner⟩ := hshape.items hfield hkind hitems
      refine .bind hname fun text htext => .after_makes (configOf_makes hinner) ?_
      refine .bind (buildField_raises hshape (.items hfield hkind hitems hinner htext.ofFault)
        (henough.imp fun n hn hle => ?_)) fun element _ => ?_
      · obtain ⟨l, hl, hln⟩ := Value.fieldCount?_lookup (fun _ => leadsOn_items) hitems hn
        obtain ⟨k, hk, rfl⟩ := Value.fieldCount?_map.1 (Value.fieldCount?_entries? hinner hl)
        exact ⟨k, hk, by omega⟩
      · have helement :
          (compileNode s.mode Settings.default .null (.ofValidator element)).Makes element :=
          .ofExcept rfl
        exact .after_makes (compile_mode_makes helement) (.pure _)
    · exact .pure _

end

theorem build_raises {catalog : Option Catalog} {settings : Settings} (hshape : HasShape whole) :
    RaisesOnly (Refusal catalog whole) (build catalog settings whole) := by
  obtain ⟨items, hsequence, hmaps⟩ := Value.isListOfMaps_iff.1 hshape.fields
  have hiterate := iterate_of_sequence? hsequence
  have hitems : AreFields whole items := fun u hu =>
    (hmaps u hu).imp fun config hconfig => ⟨hconfig, .field hiterate hu hconfig⟩
  have henough : IsEnough whole (Value.fieldCountOfAll? items) 1 (depthBound whole) := by
    cases hcount : (Value.map whole).fieldCount? with
    | none => exact .inl hcount
    | some n => exact .inr (fieldCountOfAll?_fields (by rw [hcount]; rfl) hsequence)
  have hrest : ∀ mode, RaisesOnly (Refusal catalog whole) (do
      let name ← Build.plain (option whole "name" (.text "unnamed_struct"))
      Build.log .info ("Creating struct validator: " ++ name)
      let fields ← Build.ofFault (option whole "fields" (.list [])).iterate
      let schema ← buildFields ⟨catalog, settings, mode⟩ (depthBound whole) fields []
      Schema.compile (.map schema) (.mode mode) (option whole "path" (.list []))
        (option whole "message" .null) settings : Build Validator) := by
    intro mode
    refine .bind (.plain fun hlong => .fault (.name hlong)) fun name _ =>
      .bind (.log _ _) fun _ _ => ?_
    refine .after_makes (.ofFault hiterate) ?_
    have hbuilt : RaisesOnly (Refusal catalog whole)
        (buildFields ⟨catalog, settings, mode⟩ (depthBound whole) items []) :=
      buildFields_raises hshape hitems henough
    refine .bind hbuilt fun nested hnested => ?_
    obtain ⟨entries, rfl, hentries⟩ := buildFields_yields hnested
    exact Schema.compile_raises (hitems.members hentries) (fun f hf => .fault (.path hf)) _
  unfold build
  refine .after_makes (.ofExcept hshape.names) ?_
  simp only
  split
  · refine .bind (.ofExcept fun r hr => ?_) fun mode _ => hrest mode
    exact Mode.parse_raises (fun _ => .schema) (fun hlong => .fault (.mode hlong)) hr
  · exact .bind (.pure _) fun mode _ => hrest mode

/-- A blueprint of the documented shapes is built into a validator, or it is refused with a schema
mistake, or a validator that it refers to is not in the catalog, or it raises a fault that its
arguments raise by themselves. -/
theorem build_ends {catalog : Option Catalog} {settings : Settings} (hshape : HasShape whole)
    (lines : List LogLine) :
    (∃ u, (build catalog settings whole lines).1 = .ok u) ∨
      (∃ e, (build catalog settings whole lines).1 = .error (.setup e) ∧
        (e.kind = .schema ∨ e.kind = .notFound ∧ LacksReference catalog whole)) ∨
      ∃ f, (build catalog settings whole lines).1 = .error (.fault f) ∧
      Objects catalog whole f := by
  have hraises : RaisesOnly (Refusal catalog whole) (build catalog settings whole) :=
    build_raises hshape
  cases hrun : (build catalog settings whole lines).1 with
  | ok u => exact .inl ⟨u, rfl⟩
  | error r =>
    cases hraises lines r hrun with
    | schema hkind => exact .inr (.inl ⟨_, rfl, .inl hkind⟩)
    | notFound hkind hlacks => exact .inr (.inl ⟨_, rfl, .inr ⟨hkind, hlacks⟩⟩)
    | fault hf => exact .inr (.inr ⟨_, rfl, hf⟩)

/-! ### Fields without parts -/

/-- Whether a value describes a field that has no fields and no items. -/
def isFlat (u : Value) : Bool :=
  match u.entries? with
  | some config => (Value.lookup (.text "fields") config).isNone &&
      (Value.lookup (.text "items") config).isNone &&
      (option config "checks" (.list [])).isListOfMaps
  | none => false

theorem isFlat_iff {u : Value} : isFlat u = true ↔ ∃ config, u.entries? = some config ∧
    Value.lookup (.text "fields") config = none ∧ Value.lookup (.text "items") config = none ∧
      (option config "checks" (.list [])).isListOfMaps = true := by
  unfold isFlat
  cases u.entries? with
  | none => simp
  | some config => simp [and_assoc]

/-- A blueprint of which no field has fields or items is of the documented shape. -/
theorem HasShape.of_flat {items : List Value} (hnames : Build.requireNames whole = .ok ())
    (hsequence : (option whole "fields" (.list [])).sequence? = some items)
    (hflat : items.all isFlat = true) :
    HasShape whole := by
  rw [List.all_eq_true] at hflat
  have hparts : ∀ u ∈ items, ∀ config, u.entries? = some config →
    Value.lookup (.text "fields") config = none ∧
      Value.lookup (.text "items") config = none ∧
        (option config "checks" (.list [])).isListOfMaps = true := by
    intro u hu config hconfig
    obtain ⟨config', hconfig', hflat⟩ := isFlat_iff.1 (hflat u hu)
    rwa [Option.some.inj (hconfig.symm.trans hconfig')]
  -- No field leads to another one, so all of them are fields of the record.
  have hfields : ∀ {name config}, HasField whole name config →
    ∃ u ∈ items, u.entries? = some config := by
    intro name config h
    induction h with
    | field hiterate hu hconfig =>
      rw [iterate_of_sequence? hsequence] at hiterate
      cases hiterate
      exact ⟨_, hu, hconfig⟩
    | nested _ _ hlookup _ _ _ ih =>
      obtain ⟨u, hu, houter⟩ := ih
      cases (hparts u hu _ houter).1.symm.trans hlookup
    | items _ _ hlookup _ _ ih =>
      obtain ⟨u, hu, houter⟩ := ih
      cases (hparts u hu _ houter).2.1.symm.trans hlookup
  refine ⟨hnames, ?_, fun h _ hlookup => ?_, fun h _ hlookup => ?_, fun h => ?_⟩
  · refine Value.isListOfMaps_iff.2 ⟨items, hsequence, fun u hu => ?_⟩
    exact (isFlat_iff.1 (hflat u hu)).imp fun _ hconfig => hconfig.1
  · obtain ⟨u, hu, hconfig⟩ := hfields h
    cases (hparts u hu _ hconfig).1.symm.trans hlookup
  · obtain ⟨u, hu, hconfig⟩ := hfields h
    cases (hparts u hu _ hconfig).2.1.symm.trans hlookup
  · obtain ⟨u, hu, hconfig⟩ := hfields h
    exact (hparts u hu _ hconfig).2.2

end

/-- Whether building ended with something that was not found. -/
def missesSomething : Except Raised Validator → Bool
  | .error (.setup e) => e.kind == .notFound
  | _ => false

/-- A poll of the age and of a tag that is not in the catalog. -/
theorem build_ends_poll :
    let age :=
      Value.map [(.text "name", .text "age"), (.text "type", .text "Integer"),
        (.text "checks", .list
      [.map [(.text "type", .text "range"), (.text "min", .int 13), (.text "max", .int 120)]])]
    let tag := Value.map [(.text "name", .text "tag"), (.text "ref", .text "tag")]
    let config := [(Value.text "fields", Value.list [age, tag])]
    let catalog : Catalog := .empty "validators"
    HasShape config ∧ ∃ e, (build (some catalog) Settings.default config []).1 = .error (.setup e) ∧
      e.kind = .notFound ∧ LacksReference (some catalog) config := by
  intro age tag config catalog
  have hfields : (option config "fields" (.list [])).sequence? = some [age, tag] := by
    with_unfolding_all rfl
  have hshape : HasShape config := .of_flat (by with_unfolding_all rfl) hfields (by decide +kernel)
  have hmisses : missesSomething (build (some catalog) Settings.default config []).1 = true := by
    decide +kernel
  refine ⟨hshape, ?_⟩
  rcases @build_ends config (some catalog) Settings.default hshape [] with ⟨u, hu⟩ |
    ⟨e, he, hends⟩ | ⟨f, hf, -⟩
  · rw [hu] at hmisses
    cases hmisses
  · rw [he] at hmisses
    have hkind : e.kind = .notFound := beq_iff_eq.1 hmisses
    rcases hends with hschema | ⟨-, hlacks⟩
    · cases hschema.symm.trans hkind
    · exact ⟨e, he, hkind, hlacks⟩
  · rw [hf] at hmisses
    cases hmisses

/-- The length of a text is itself a text, and comparing it with zero is a fault. -/
theorem length_without_order :
    let check := Value.map [(.text "type", .text "min_length"), (.text "value", .text "x")]
    let field := Value.map [(.text "name", .text "a"), (.text "type", .text "string"),
      (.text "checks", .list [check])]
    let config := [(Value.text "fields", Value.list [field])]
    HasShape config ∧ ∀ lines, (build none Settings.default config lines).1 =
      .error (.fault (.unordered .less "str" "int")) := by
  intro check field config
  have hfields : (option config "fields" (.list [])).sequence? = some [field] := by
    with_unfolding_all rfl
  refine ⟨.of_flat (by with_unfolding_all rfl) hfields (by decide +kernel), fun lines => ?_⟩
  with_unfolding_all rfl

end Blueprint

end Attest
