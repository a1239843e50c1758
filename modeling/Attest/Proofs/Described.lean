import Attest.Blueprint
import Attest.Proofs.Built
import Attest.Proofs.Names
import Attest.Proofs.Totality

/-!
# Described schemas

What a blueprint is a description of: a schema with a map for every list of fields, a list of one
node for every description of items, and a validator for every other field. The depth of the walk
through a blueprint is bounded by its size, and the bound is enough unless the fields of a field
lead back to the field.

* `Value.fieldCount?`: how many descriptions of fields there are in a value.
* `Blueprint.Describes`: a description of a field, and the schema that it stands for.
-/

namespace Attest

/-! ## Counting -/

namespace Value

/-- Whether more descriptions of fields are found under a key. -/
def leadsOn (key : Value) : Bool := key.same (.text "fields") || key.same (.text "items")

mutual

/-- How many descriptions of fields there are in a value, along the keys that lead to them; none is
told if the way to them leads back to where it came from. -/
def fieldCount? : Value → Option Nat
  | .list items | .tuple items => fieldCountOfAll? items
  | .map entries => do return (← fieldCountOfEntries? entries) + 1
  | .up _ => none
  | _ => some 0

def fieldCountOfAll? : List Value → Option Nat
  | [] => some 0
  | v :: rest => do return (← fieldCount? v) + (← fieldCountOfAll? rest)

def fieldCountOfEntries? : List (Value × Value) → Option Nat
  | [] => some 0
  | (key, v) :: rest =>
    if leadsOn key then do return (← fieldCount? v) + (← fieldCountOfEntries? rest)
    else fieldCountOfEntries? rest

end

theorem add_eq_some {x y : Option Nat} {n : Nat} :
    (do return (← x) + (← y) : Option Nat) = some n ↔ ∃ a b, x = some a ∧
    y = some b ∧ a + b = n := by
  cases x <;> cases y <;> simp

theorem fieldCountOfAll?_cons {v : Value} {rest : List Value} {n : Nat} :
    fieldCountOfAll? (v :: rest) = some n ↔
      ∃ a b, v.fieldCount? = some a ∧ fieldCountOfAll? rest = some b ∧ a + b = n := by
  rw [fieldCountOfAll?, add_eq_some]

theorem fieldCountOfEntries?_cons {key v : Value} {rest : List (Value × Value)} {n : Nat} :
    fieldCountOfEntries? ((key, v) :: rest) = some n ↔
      ∃ a b, (if leadsOn key then v.fieldCount? else some 0) = some a ∧
        fieldCountOfEntries? rest = some b ∧ a + b = n := by
  rw [fieldCountOfEntries?]
  by_cases h : leadsOn key = true
  · simp only [h, ↓reduceIte, add_eq_some]
  · simp [h]

theorem fieldCount?_map {entries : List (Value × Value)} {n : Nat} :
    (Value.map entries).fieldCount? = some n ↔
    ∃ k, fieldCountOfEntries? entries = some k ∧ k + 1 = n := by
  rw [fieldCount?]
  cases fieldCountOfEntries? entries <;> simp

mutual

/-- The descriptions are among all the values there are. -/
theorem fieldCount?_le_nodes : ∀ {v : Value} {n : Nat}, v.fieldCount? = some n → n ≤ v.nodes
  | .list items, n, h | .tuple items, n, h => by
    rw [fieldCount?] at h
    exact Nat.le_succ_of_le (fieldCountOfAll?_le_nodes h)
  | .map entries, n, h => by
    obtain ⟨k, hk, rfl⟩ := fieldCount?_map.1 h
    exact Nat.succ_le_succ (fieldCountOfEntries?_le_nodes hk)
  | .up _, _, h => by cases h
  | .missing, _, h | .null, _, h | .bool _, _, h | .int _, _, h | .float _, _, h | .nan _, _, h
  | .text _, _, h | .bytes _, _, h | .set _, _, h | .moment _, _, h | .date _, _, h | .time _, _, h
  | .pattern _, _, h | .mode _, _, h | .type _, _, h | .object _, _, h | .function _, _, h
  | .validator _ _ _, _, h => by
    cases h
    exact Nat.zero_le _
termination_by structural v => v

theorem fieldCountOfAll?_le_nodes :
    ∀ {items : List Value} {n : Nat}, fieldCountOfAll? items = some n →
    n ≤ nodesOfAll items
  | [], _, h => by
    cases h
    exact Nat.le_refl 0
  | v :: rest, _, h => by
    obtain ⟨a, b, ha, hb, rfl⟩ := fieldCountOfAll?_cons.1 h
    exact Nat.add_le_add (fieldCount?_le_nodes ha) (fieldCountOfAll?_le_nodes hb)
termination_by structural items => items

theorem fieldCountOfEntries?_le_nodes : ∀ {entries : List (Value × Value)} {n : Nat},
    fieldCountOfEntries? entries = some n → n ≤ nodesOfEntries entries
  | [], _, h => by
    cases h
    exact Nat.le_refl 0
  | (key, v) :: rest, _, h => by
    obtain ⟨a, b, ha, hb, rfl⟩ := fieldCountOfEntries?_cons.1 h
    refine Nat.add_le_add ?_ (fieldCountOfEntries?_le_nodes hb)
    split at ha
    · exact fieldCount?_le_nodes ha
    · cases ha
      exact Nat.zero_le _
termination_by structural entries => entries

end

/-! ## Parts keep their count -/

theorem fieldCountOfAll?_mapIdx : ∀ {items : List Value} {f : Nat → Value → Value} {n : Nat},
    fieldCountOfAll? items = some n →
    (∀ i u, items[i]? = some u → ∀ k, u.fieldCount? = some k → (f i u).fieldCount? = some k) →
      fieldCountOfAll? (items.mapIdx f) = some n
  | [], _, _, h, _ => h
  | v :: rest, f, n, h, hf => by
    obtain ⟨a, b, ha, hb, rfl⟩ := fieldCountOfAll?_cons.1 h
    rw [List.mapIdx_cons]
    exact fieldCountOfAll?_cons.2 ⟨a, b, hf 0 v rfl a ha,
      fieldCountOfAll?_mapIdx hb fun i u hu => hf (i + 1) u hu, rfl⟩

theorem fieldCountOfEntries?_mapIdx :
    ∀ {entries : List (Value × Value)} {f : Nat → Value → Value} {n : Nat},
    fieldCountOfEntries? entries = some n →
    (∀ i e, entries[i]? = some e → ∀ k, e.2.fieldCount? = some k → (f i e.2).fieldCount? = some k) →
      fieldCountOfEntries? (entries.mapIdx fun i e => (e.1, f i e.2)) = some n
  | [], _, _, h, _ => h
  | (key, v) :: rest, f, n, h, hf => by
    obtain ⟨a, b, ha, hb, rfl⟩ := fieldCountOfEntries?_cons.1 h
    rw [List.mapIdx_cons]
    refine fieldCountOfEntries?_cons.2 ⟨a, b, ?_, fieldCountOfEntries?_mapIdx hb fun i e he =>
      hf (i + 1) e he, rfl⟩
    split at ha
    · next hkey => rw [if_pos hkey, hf 0 (key, v) rfl a ha]
    · next hkey => rw [if_neg hkey, ha]

theorem fieldCount?_mapChildren {v : Value} {f : Nat → Value → Value} {n : Nat}
    (h : v.fieldCount? = some n) (hf : ∀ i u, v.child? i = some u → ∀ k, u.fieldCount? = some k →
      (f i u).fieldCount? = some k) :
    (v.mapChildren f).fieldCount? = some n := by
  cases v with
  | list items | tuple items =>
    rw [fieldCount?] at h
    simp only [mapChildren, fieldCount?]
    exact fieldCountOfAll?_mapIdx h hf
  | map entries =>
    obtain ⟨k, hk, rfl⟩ := fieldCount?_map.1 h
    refine fieldCount?_map.2 ⟨k, fieldCountOfEntries?_mapIdx hk fun i e he => ?_, rfl⟩
    exact hf i e.2 (by simp [child?, he])
  | _ => exact h

/-- Unfolding from a place keeps the count of what stands there. -/
theorem fieldCount?_unfold {whole : Value} : ∀ (fuel : Nat) (around : List Place) (place : Place)
    {v : Value} {n : Nat}, whole.at? place = some v → v.nodes ≤ fuel →
      (∀ outer ∈ around, outer.length ≤ place.length) → v.fieldCount? = some n →
      (unfold whole fuel around place).fieldCount? = some n
  | 0, _, _, v, _, _, hfuel, _, _ => absurd v.nodes_pos (by omega)
  | fuel + 1, around, place, v, n, hat, hfuel, haround, h => by
    unfold unfold
    rw [hat, Option.getD_some]
    refine fieldCount?_mapChildren h fun i u hu k hk => ?_
    have hat' : whole.at? (place ++ [i]) = some u := by
      rw [at?_append, hat]
      exact hu
    have hnodes := nodes_child? hu
    simp only
    split
    · exact hk
    · cases u with
      | up n => cases hk
      | _ =>
        simp only [idxOf?_child haround i]
        exact fieldCount?_unfold fuel _ _ hat' (by omega) (length_le_child haround i) hk

theorem fieldCount?_takenOut {whole v : Value} {place : Place} {n : Nat}
    (hat : whole.at? place = some v) (h : v.fieldCount? = some n) :
    (whole.takenOut place v).fieldCount? = some n := by
  unfold takenOut
  split
  · exact h
  · cases v with
    | up n => cases h
    | _ => exact fieldCount?_unfold _ [] _ hat (nodes_at? hat) (by simp) h

/-- The items of a list, as values of their own, have the count of the list together. -/
theorem fieldCountOfAll?_sequence? {v : Value} {items : List Value} {n : Nat}
    (hitems : v.sequence? = some items) (h : v.fieldCount? = some n) :
    fieldCountOfAll? items = some n := by
  cases v with
  | list vs | tuple vs =>
    cases hitems
    exact fieldCountOfAll?_mapIdx h fun i u hu k hk =>
      fieldCount?_takenOut (by simp [at?, child?, hu]) hk
  | _ => cases hitems

/-- The entries of a map, as values of their own, have the count of the map. -/
theorem fieldCount?_entries? {v : Value} {entries : List (Value × Value)} {n : Nat}
    (hentries : v.entries? = some entries) (h : v.fieldCount? = some n) :
    (Value.map entries).fieldCount? = some n := by
  cases v with
  | map es =>
    cases hentries
    obtain ⟨k, hk, rfl⟩ := fieldCount?_map.1 h
    refine fieldCount?_map.2 ⟨k, fieldCountOfEntries?_mapIdx hk fun i e he l hl => ?_, rfl⟩
    exact fieldCount?_takenOut (by simp [at?, child?, he]) hl
  | _ => cases hentries

/-- What stands under a key that leads on has its share in the count. -/
theorem fieldCount?_lookup {key v : Value}
    (hkey : ∀ k : Value, k.same key = true → leadsOn k = true) :
    ∀ {entries : List (Value × Value)} {n : Nat}, lookup key entries = some v →
      fieldCountOfEntries? entries = some n → ∃ k, v.fieldCount? = some k ∧ k ≤ n
  | [], _, hv, _ => nomatch hv
  | (k, u) :: rest, n, hv, h => by
    obtain ⟨a, b, ha, hb, rfl⟩ := fieldCountOfEntries?_cons.1 h
    rw [lookup_cons] at hv
    split at hv
    · next hsame =>
      cases hv
      rw [if_pos (hkey k hsame)] at ha
      exact ⟨a, ha, Nat.le_add_right a b⟩
    · obtain ⟨c, hc, hle⟩ := fieldCount?_lookup hkey hv hb
      exact ⟨c, hc, Nat.le_trans hle (Nat.le_add_left b a)⟩

end Value

/-! ## Descriptions -/

namespace Blueprint

variable {catalog : Option Catalog} {config : List (Value × Value)}

/-- One check of a field, and what the method that it names makes of the field's validator. -/
inductive Checked (check : Value) (v u : Validator) : Prop
  | intro {config : List (Value × Value)} {type : String} {method : Method} {keys : List String} :
      check.entries? = some config → (option config "type" (.text "")).plain = .ok type →
      checkTypes.lookup (Text.lower type) = some (method, keys) →
      (∀ key ∈ keys, Value.hasKey (.text key) config = true) →
      (v.extend method (keys.map fun key => option config key .null)
        (some (option config "message" .null))).Makes u → Checked check v u

/-- The checks of a field in order, and what becomes of the field's validator. -/
inductive CheckedAll : List Value → Validator → Validator → Prop
  | nil (v : Validator) : CheckedAll [] v v
  | cons {check : Value} {rest : List Value} {v v' u : Validator} : Checked check v v' →
      CheckedAll rest v' u → CheckedAll (check :: rest) v u

/-- A field that refers to no validator and has a type of a kind. -/
structure IsOfKind (config : List (Value × Value)) (kind : Kind) : Prop where
  noReference : (option config "ref" .null).isTruthy = false
  type : ∃ type, (option config "type" (.text "string")).plain = .ok type ∧
    fieldTypes.lookup (Text.lower type) = some kind

/-- The validator that a field starts from, where it describes no parts: the one that it refers to
in the catalog, or that of its type. -/
inductive Starts (catalog : Option Catalog) (config : List (Value × Value)) : Validator → Prop
  | reference {c : Catalog} {v : Validator} : (option config "ref" .null).isTruthy = true →
      (option config "ref" .null).unhashable? = none → catalog = some c →
      c.find? (option config "ref" .null) = some v → Starts catalog config v
  | type {kind : Kind} : IsOfKind config kind →
      (kind = .object → Value.lookup (.text "fields") config = none) →
      (kind = .array → Value.lookup (.text "items") config = none) →
      Starts catalog config (Validator.create kind .null)

/-- A validator, or one with a default in front where the field need not be there. -/
def orDefault (config : List (Value × Value)) (v : Validator) : Validator :=
  if (option config "required" (.bool true)).isTruthy then v
  else v.optional (option config "default" .missing)

/-- A field that describes the parts of a record or of a list: it is required, and has no checks. -/
structure IsWhole (config : List (Value × Value)) (kind : Kind) : Prop where
  kind : IsOfKind config kind
  required : (option config "required" (.bool true)).isTruthy = true
  checks : (option config "checks" (.list [])).iterate = .ok []
  message : (option config "message" .null).isMessage = true

/-- A field of a record: what describes it, and its schema. -/
structure Member where
  config : List (Value × Value)
  node : Value

namespace Member

def name (m : Member) : Value := option m.config "name" .null

/-- The schema of a record, a map from the names of the fields to their schemas. -/
def schemaOf (members : List Member) : Value := .map (members.map fun m => (m.name, m.node))

end Member

/-- A list of descriptions of fields, each of which has a name of its own. -/
structure Lists (fields : Value) (members : List Member) : Prop where
  items : ∃ items, fields.sequence? = some items ∧
    items.map Value.entries? = members.map fun m => some m.config
  named : ∀ m ∈ members, m.name.isTruthy = true ∧ m.name.unhashable? = none ∧
    m.name.isWritable = true
  distinct : (members.map Member.name).Pairwise fun a b => a.same b = false

/-- A description of a field, and the schema that it stands for. -/
inductive Describes (catalog : Option Catalog) : List (Value × Value) → Value → Prop
  | leaf {config : List (Value × Value)} {start v : Validator} {checks : List Value} :
      Starts catalog config start → (option config "checks" (.list [])).iterate = .ok checks →
      CheckedAll checks start v → Describes catalog config (.ofValidator (orDefault config v))
  | record {config : List (Value × Value)} {fields : Value} {members : List Member} :
      IsWhole config .object → Value.lookup (.text "fields") config = some fields →
      Lists fields members →
      (∀ m ∈ members, Describes catalog m.config m.node) →
      Describes catalog config (Member.schemaOf members)
  | items {config config' : List (Value × Value)} {items node : Value} :
      IsWhole config .array → Value.lookup (.text "items") config = some items →
      items.entries? = some config' → Describes catalog config' node →
      Describes catalog config (.list [node])

/-- A blueprint, and what it describes: the schema of a record, the mode that this compiles in (null
for the one of the settings) and the path in front of it. The fields of no field lead back to the
field. -/
structure DescribesWhole (catalog : Option Catalog) (config : List (Value × Value))
    (schema mode path : Value) : Prop where
  names : Build.requireNames config = .ok ()
  name : (option config "name" (.text "unnamed_struct")).isWritable = true
  message : (option config "message" .null).isMessage = true
  mode : (option config "mode" .null).isTruthy = false ∧ mode = .null ∨
    (option config "mode" .null).isTruthy = true ∧ mode = option config "mode" .null ∧
      ∃ m, Mode.parse mode = .ok m
  path : path = option config "path" (.list []) ∧ ∃ segments, path.iterate = .ok segments
  finite : (Value.map config).fieldCount?.isSome = true
  fields : ∃ members, Lists (option config "fields" (.list [])) members ∧
    (∀ m ∈ members, Describes catalog m.config m.node) ∧ schema = Member.schemaOf members

/-! ## Building from descriptions -/

theorem configOf_makes {v : Value} (h : v.entries? = some config) : (configOf v).Makes config := by
  unfold configOf
  rw [h]
  exact .pure _

theorem lowerName_makes {v : Value} {name : String} (h : v.plain = .ok name) :
    (lowerName v).Makes (Text.lower name) :=
  (Build.Makes.ofFault h).bind (.pure _)

theorem isOf_of_extend_makes {v u : Validator} {m : Method} {args : List Value}
    {message : Option Value} (h : (v.extend m args message).Makes u) : m.isOf v.kind = true := by
  by_contra hkind
  have hkind : m.isOf v.kind = false := by simpa using hkind
  have hlines := h []
  unfold Validator.extend at hlines
  rw [hkind] at hlines
  cases hlines

theorem Checked.makes {check : Value} {v u : Validator} (h : Checked check v u) (name : Value) :
    (applyCheck name v check).Makes u := by
  obtain ⟨hconfig, htype, hlookup, hgiven, hmakes⟩ := h
  unfold applyCheck
  refine (configOf_makes hconfig).bind ((lowerName_makes htype).bind ?_)
  have habsent : ∀ (keys : List String) (config : List (Value × Value)),
      (∀ key ∈ keys, Value.hasKey (.text key) config = true) →
      (keys.filter fun key => !Value.hasKey (.text key) config).isEmpty = true := by
    intro keys config h
    simp [List.isEmpty_iff, List.filter_eq_nil_iff]
    exact h
  simp only [hlookup, isOf_of_extend_makes hmakes, habsent _ _ hgiven]
  exact hmakes

theorem CheckedAll.makes {checks : List Value} {v u : Validator}
    (h : CheckedAll checks v u) (name : Value) :
    (checks.foldlM (applyCheck name) v).Makes u := by
  induction h with
  | nil v => exact .pure v
  | cons hcheck _ ih =>
    rw [List.foldlM_cons]
    exact (hcheck.makes name).bind ih

theorem finish_makes (name : Value) {checks : List Value} {v u : Validator}
    (hchecks : (option config "checks" (.list [])).iterate = .ok checks)
    (h : CheckedAll checks v u) :
    (finish config name v).Makes (orDefault config u) := by
  refine (Build.Makes.ofFault hchecks).bind ((h.makes name).bind ?_)
  unfold orDefault
  split
  · exact .pure _
  · exact .pure _

theorem IsWhole.finish_makes {kind : Kind} (h : IsWhole config kind)
    (name : Value) (v : Validator) :
    (finish config name v).Makes v := by
  have hmakes : (finish config name v).Makes (orDefault config v) :=
    Blueprint.finish_makes name h.checks (.nil v)
  rwa [orDefault, if_pos h.required] at hmakes

end Blueprint

end Attest
