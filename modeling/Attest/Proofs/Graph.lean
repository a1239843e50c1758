import Attest.Proofs.Equivalence
import Attest.Proofs.Totality
import Mathlib.Data.Fintype.Card
import Mathlib.Logic.Relation

/-!
# Values as graphs

Values as they stand in memory: nodes that hold nodes, where one node may be held at many places,
and by itself. The tree of a node is the value that it is seen as from there: a reference stands
wherever the walk comes back to a node that it is still inside of, so the tree is finite however the
nodes hold one another.

* `tree_isClosed`, `tree_isShort`: the tree is a value of its own, with no other atoms.
* `tree_append`: nodes that are not led to leave no mark in it.
* `holdsReference_tree`: without cycles there is no reference in it.
* `compact?_tree_iff`: JSON knows it just where all its keys are names and it has no cycle.
-/

open Relation (ReflTransGen TransGen)

namespace Attest

/-- The containers that messages show in parentheses. -/
inductive Form where
  | list
  | tuple
  | set
  deriving DecidableEq, Repr

/-- The container of some items. -/
def Form.of : Form → List Value → Value
  | .list => .list
  | .tuple => .tuple
  | .set => .set

/-- A value that holds no others, and refers to none. -/
structure Atom where
  value : Value
  isAtom : value.isAtom = true
  isClosed : value.isClosed = true

/-- What a node is, with the nodes that it holds. Keys cannot be changed, so they are values. -/
inductive Shape (ι : Type) where
  | atom (a : Atom)
  | sequence (form : Form) (items : List ι)
  | map (entries : List (Value × ι))

/-- The nodes that a node holds. -/
def Shape.children {ι : Type} : Shape ι → List ι
  | .atom _ => []
  | .sequence _ items => items
  | .map entries => entries.map (·.2)

/-- Nodes and what they hold. -/
structure Graph (ι : Type) where
  shape : ι → Shape ι

theorem Atom.holdsReference (a : Atom) : a.value.holdsReference = false := by
  obtain ⟨v, ha, hc⟩ := a
  cases v <;> first | rfl | (cases ha; done) | simp [Value.isClosed, Value.isClosedIn] at hc

namespace Form

variable {form : Form} {vs : List Value}

@[simp] theorem isClosedIn_of {d : Nat} :
    (form.of vs).isClosedIn d = true ↔ ∀ v ∈ vs, v.isClosedIn (d + 1) = true := by
  cases form <;> exact Value.areClosedIn_iff

@[simp] theorem isShort_of : (form.of vs).isShort = true ↔ ∀ v ∈ vs, v.isShort = true := by
  cases form <;> simp only [of, Value.isShort, Value.everywhere, Bool.true_and,
    Value.everywhereAll_iff]

@[simp] theorem holdsReference_of :
    (form.of vs).holdsReference = false ↔ ∀ v ∈ vs, v.holdsReference = false := by
  have h : Value.someHoldsReference vs = false ↔ ∀ v ∈ vs, v.holdsReference = false := by
    simp [← Bool.not_eq_true, Value.someHoldsReference_iff]
  cases form <;> exact h

end Form

namespace Value

/-- What holds of atoms, and of a container where it holds of all that it holds, holds of every
value. -/
@[elab_as_elim]
theorem forms_induction {P : Value → Prop}
    (sequence : ∀ (form : Form) vs, (∀ v ∈ vs, P v) → P (form.of vs))
    (map : ∀ entries : List (Value × Value), (∀ e ∈ entries, P e.1 ∧ P e.2) → P (.map entries))
    (atom : ∀ v, v.isAtom = true → P v) : ∀ v, P v :=
  containers_induction (sequence .list) (sequence .tuple) (sequence .set) map atom

@[simp] theorem isClosedIn_map {entries : List (Value × Value)} {d : Nat} :
    (Value.map entries).isClosedIn d = true ↔ ∀ e ∈ entries, e.2.isClosedIn (d + 1) = true :=
  entriesAreClosedIn_iff

@[simp] theorem holdsReference_map {entries : List (Value × Value)} :
    (Value.map entries).holdsReference = false ↔ ∀ e ∈ entries, e.2.holdsReference = false := by
  simp [holdsReference, ← Bool.not_eq_true, someEntryHoldsReference_iff]

/-- What holds no reference is closed. -/
theorem isClosedIn_of_holdsReference {v : Value} : ∀ {d : Nat}, v.holdsReference = false →
    v.isClosedIn d = true := by
  induction v using forms_induction with
  | sequence form vs ih =>
    intro d h
    rw [Form.holdsReference_of] at h
    exact Form.isClosedIn_of.2 fun v hv => ih v hv (h v hv)
  | map entries ih =>
    intro d h
    rw [holdsReference_map] at h
    exact isClosedIn_map.2 fun e he => (ih e he).2 (h e he)
  | atom v ha =>
    intro d h
    cases v <;> first | rfl | (cases ha; done) | cases h

end Value

namespace Graph

variable {ι : Type} (g : Graph ι)

/-- The second node is an item of the first one, or the value of one of its entries. -/
def Holds (n m : ι) : Prop := m ∈ (g.shape n).children

/-- Nothing below a node holds itself, be it over others. -/
def IsAcyclicFrom (n : ι) : Prop := ∀ m, ReflTransGen g.Holds n m → ¬ TransGen g.Holds m m

/-- Every integer of the graph has a text. -/
structure IsShort : Prop where
  atoms : ∀ n a, g.shape n = .atom a → a.value.isShort = true
  keys : ∀ n entries, g.shape n = .map entries → ∀ e ∈ entries, e.1.isShort = true

/-- What can be in a set: what can be hashed, which a walk finds out that ends. -/
inductive IsKey : ι → Prop where
  | atom {n : ι} {a : Atom} (h : g.shape n = .atom a) : IsKey n
  | sequence {n : ι} {form : Form} {items : List ι} (h : g.shape n = .sequence form items)
      (hf : form ≠ .list) (hi : ∀ m ∈ items, IsKey m) : IsKey n

/-- All that is in sets can be hashed. -/
def SetsHoldKeys : Prop :=
  ∀ n items, g.shape n = .sequence .set items → ∀ m ∈ items, g.IsKey m

variable {g}

theorem holds_sequence {n m : ι} {form : Form} {items : List ι}
    (h : g.shape n = .sequence form items) :
    g.Holds n m ↔ m ∈ items := by
  rw [Holds, h]
  rfl

theorem holds_map {n m : ι} {entries : List (Value × ι)} (h : g.shape n = .map entries) :
    g.Holds n m ↔ ∃ e ∈ entries, e.2 = m := by
  rw [Holds, h]
  exact List.mem_map

theorem IsAcyclicFrom.of_holds {n m : ι} (h : g.IsAcyclicFrom n) (hm : g.Holds n m) :
    g.IsAcyclicFrom m :=
  fun k hk => h k (.head hm hk)

/-! ## Keys -/

theorem IsKey.of_holds {n m : ι} (h : g.IsKey n) (hm : g.Holds n m) : g.IsKey m := by
  cases h with
  | atom h =>
    rw [Holds, h] at hm
    cases hm
  | sequence h _ hi => exact hi m ((holds_sequence h).1 hm)

theorem IsKey.of_reaches {n m : ι} (h : g.IsKey n) (hm : ReflTransGen g.Holds n m) : g.IsKey m := by
  induction hm with
  | refl => exact h
  | tail _ hk ih => exact ih.of_holds hk

/-- What can be hashed holds nothing that holds it. -/
theorem IsKey.not_cycle {n : ι} (h : g.IsKey n) : ¬ TransGen g.Holds n n := by
  induction h with
  | atom h =>
    intro hc
    obtain ⟨m, hm, -⟩ := TransGen.head'_iff.1 hc
    rw [Holds, h] at hm
    cases hm
  | sequence h _ _ ih =>
    intro hc
    obtain ⟨m, hm, hback⟩ := TransGen.head'_iff.1 hc
    exact ih m ((holds_sequence h).1 hm) (.tail' hback hm)

theorem IsKey.shape_ne_map {n : ι} (h : g.IsKey n) (entries : List (Value × ι)) :
    g.shape n ≠ .map entries := by
  cases h with
  | atom h | sequence h _ _ => simp [h]

/-- A set is in no cycle and leads to none. -/
theorem SetsHoldKeys.isAcyclicFrom {n : ι} {items : List ι} (hs : g.SetsHoldKeys)
    (h : g.shape n = .sequence .set items) : g.IsAcyclicFrom n := by
  have hkeys : ∀ m, g.Holds n m → g.IsKey m := fun m hm => hs n items h m ((holds_sequence h).1 hm)
  intro m hm hc
  rcases ReflTransGen.cases_head hm with rfl | ⟨c, hc', hm⟩
  · obtain ⟨c, hc', hback⟩ := TransGen.head'_iff.1 hc
    exact (hkeys c hc').not_cycle (.tail' hback hc')
  · exact ((hkeys c hc').of_reaches hm).not_cycle hc

/-- A map is not below a set. -/
theorem SetsHoldKeys.shape_ne_map {n m : ι} {items : List ι} (hs : g.SetsHoldKeys)
    (h : g.shape n = .sequence .set items) (hm : ReflTransGen g.Holds n m)
    (entries : List (Value × ι)) :
    g.shape m ≠ .map entries := by
  rcases ReflTransGen.cases_head hm with rfl | ⟨c, hc, hm⟩
  · simp [h]
  · exact ((hs n items h c ((holds_sequence h).1 hc)).of_reaches hm).shape_ne_map entries

/-! ## Walks -/

variable [Fintype ι] [DecidableEq ι]

omit [DecidableEq ι] in
/-- How many nodes a walk is not inside of. -/
def room (seen : Finset ι) : Nat := Fintype.card ι - seen.card

theorem room_insert {seen : Finset ι} {n : ι} (h : n ∉ seen) :
    room (insert n seen) < room seen := by
  have hle := (insert n seen).card_le_univ
  rw [Finset.card_insert_of_notMem h] at hle
  rw [room, room, Finset.card_insert_of_notMem h]
  omega

theorem room_cons {path : List ι} {n : ι} (h : n ∉ path) :
    room (n :: path).toFinset < room path.toFinset := by
  rw [List.toFinset_cons]
  exact room_insert (by simpa using h)

set_option linter.unusedSectionVars false in
/-- What holds of a node on a path wherever it holds of all nodes on the path with this one in front
of it, if that is a new one, holds of all nodes on all paths. -/
theorem walk_induction {P : List ι → ι → Prop}
    (step : ∀ path n, (n ∉ path → ∀ m, P (n :: path) m) → P path n) (path : List ι) (n : ι) :
    P path n :=
  step path n fun _ m => walk_induction step (n :: path) m
termination_by room path.toFinset
decreasing_by exact room_cons ‹_›

/-! ## Trees -/

/-- A node as a value. `around` holds the nodes that the walk is inside of, from the inside. -/
def tree {ι : Type} [Fintype ι] [DecidableEq ι] (g : Graph ι) (around : List ι) (n : ι) : Value :=
  if _ : n ∈ around then .up (around.idxOf n)
  else
    match g.shape n with
    | .atom a => a.value
    | .sequence form items => form.of (items.map fun m => tree g (n :: around) m)
    | .map entries => .map (entries.map fun (k, m) => (k, tree g (n :: around) m))
termination_by room around.toFinset
decreasing_by all_goals exact room_cons ‹_›

variable {around : List ι} {n : ι}

theorem tree_of_mem (h : n ∈ around) : g.tree around n = .up (around.idxOf n) := by
  rw [tree, dif_pos h]

/-- A node is referred to by its number on the way out. -/
theorem tree_of_getElem? {k : Nat} (hnodup : around.Nodup) (h : around[k]? = some n) :
    g.tree around n = .up k := by
  obtain ⟨hlt, rfl⟩ := List.getElem?_eq_some_iff.1 h
  rw [tree_of_mem (List.getElem_mem hlt), hnodup.idxOf_getElem k hlt]

theorem tree_atom {a : Atom} (hn : n ∉ around) (h : g.shape n = .atom a) :
    g.tree around n = a.value := by
  rw [tree, dif_neg hn, h]

theorem tree_sequence {form : Form} {items : List ι} (hn : n ∉ around)
    (h : g.shape n = .sequence form items) :
    g.tree around n = form.of (items.map (g.tree (n :: around))) := by
  rw [tree, dif_neg hn, h]

theorem tree_map {entries : List (Value × ι)} (hn : n ∉ around) (h : g.shape n = .map entries) :
    g.tree around n = .map (entries.map fun e => (e.1, g.tree (n :: around) e.2)) := by
  rw [tree, dif_neg hn, h]

/-- The tree of a node refers to nothing but itself and the nodes that the walk is inside of. -/
theorem tree_isClosedIn (around : List ι) (n : ι) :
    (g.tree around n).isClosedIn around.length = true := by
  induction around, n using walk_induction with
  | step around n ih =>
    by_cases hn : n ∈ around
    · simpa [tree_of_mem hn, Value.isClosedIn] using List.idxOf_lt_length_of_mem hn
    · cases h : g.shape n with
      | atom a =>
        rw [tree_atom hn h]
        exact Value.isClosedIn_mono (Nat.zero_le _) a.isClosed
      | sequence form items =>
        simpa [tree_sequence hn h] using fun m _ => ih hn m
      | map entries =>
        rw [tree_map hn h, Value.isClosedIn_map, List.forall_mem_map]
        exact fun e _ => ih hn e.2

theorem tree_isClosed (n : ι) : (g.tree [] n).isClosed = true := tree_isClosedIn [] n

theorem tree_isShort (hw : g.IsShort) (around : List ι) (n : ι) :
    (g.tree around n).isShort = true := by
  induction around, n using walk_induction with
  | step around n ih =>
    by_cases hn : n ∈ around
    · rw [tree_of_mem hn]
      rfl
    · cases h : g.shape n with
      | atom a => exact tree_atom hn h ▸ hw.atoms n a h
      | sequence form items => simpa [tree_sequence hn h] using fun m _ => ih hn m
      | map entries =>
        rw [tree_map hn h, Value.isShort_map, List.forall_mem_map]
        exact fun e he => ⟨hw.keys n entries h e he, ih hn e.2⟩

/-- Nodes around that are not led to leave no mark. -/
theorem tree_append {outer : List ι} (around : List ι) (n : ι)
    (h : ∀ m, ReflTransGen g.Holds n m → m ∉ outer) :
    g.tree (around ++ outer) n = g.tree around n := by
  induction around, n using walk_induction with
  | step around n ih =>
    by_cases hn : n ∈ around
    · rw [tree_of_mem hn, tree_of_mem (List.mem_append_left _ hn), List.idxOf_append_of_mem hn]
    · have hn' : n ∉ around ++ outer := by simpa [hn] using h n .refl
      have hbelow : ∀ m, g.Holds n m → g.tree (n :: (around ++ outer)) m = g.tree (n :: around) m :=
        fun m hm => ih hn m fun k hk => h k (.head hm hk)
      cases hs : g.shape n with
      | atom a => rw [tree_atom hn hs, tree_atom hn' hs]
      | sequence form items =>
        rw [tree_sequence hn hs, tree_sequence hn' hs]
        congr 1
        exact List.map_congr_left fun m hm => hbelow m ((holds_sequence hs).2 hm)
      | map entries =>
        rw [tree_map hn hs, tree_map hn' hs]
        congr 1
        refine List.map_congr_left fun e he => ?_
        rw [hbelow e.2 ((holds_map hs).2 ⟨e, he, rfl⟩)]

/-- What leads to nothing around it has one tree everywhere. -/
theorem tree_eq_of_not_reaches (h : ∀ m, ReflTransGen g.Holds n m → m ∉ around) :
    g.tree around n = g.tree [] n :=
  tree_append [] n h

variable (g) in
/-- From a node on all ways lead down: to none of the nodes around it, and into no cycle. -/
structure Descends (around : List ι) (n : ι) : Prop where
  off : ∀ m, ReflTransGen g.Holds n m → m ∉ around
  acyclic : g.IsAcyclicFrom n

omit [Fintype ι] [DecidableEq ι] in
theorem descends_nil : g.Descends [] n ↔ g.IsAcyclicFrom n :=
  ⟨fun h => h.acyclic, fun h => ⟨fun _ _ => List.not_mem_nil, h⟩⟩

omit [Fintype ι] [DecidableEq ι] in
theorem descends_iff (hn : n ∉ around) :
    g.Descends around n ↔ ∀ m, g.Holds n m → g.Descends (n :: around) m := by
  constructor
  · intro h m hm
    refine ⟨fun k hk hmem => ?_, h.acyclic.of_holds hm⟩
    rcases List.mem_cons.1 hmem with rfl | hmem
    · exact h.acyclic k .refl (.head' hm hk)
    · exact h.off k (.head hm hk) hmem
  · intro h
    refine ⟨fun m hm hmem => ?_, fun m hm hc => ?_⟩
    · rcases ReflTransGen.cases_head hm with rfl | ⟨c, hc, hm⟩
      · exact hn hmem
      · exact (h c hc).off m hm (List.mem_cons_of_mem _ hmem)
    · rcases ReflTransGen.cases_head hm with rfl | ⟨c, hc', hm⟩
      · obtain ⟨c, hc', hback⟩ := TransGen.head'_iff.1 hc
        exact (h c hc').off n hback List.mem_cons_self
      · exact (h c hc').acyclic m hm hc

/-- The tree of what holds no cycle holds no reference. -/
theorem holdsReference_tree {around : List ι} {n : ι} (h : g.Descends around n) :
    (g.tree around n).holdsReference = false := by
  induction around, n using walk_induction with
  | step around n ih =>
    have hn : n ∉ around := h.off n .refl
    have hbelow : ∀ m, g.Holds n m → (g.tree (n :: around) m).holdsReference = false :=
      fun m hm => ih hn m ((descends_iff hn).1 h m hm)
    cases hs : g.shape n with
    | atom a => exact tree_atom hn hs ▸ a.holdsReference
    | sequence form items => simpa [tree_sequence hn hs, holds_sequence hs] using hbelow
    | map entries =>
      rw [tree_map hn hs, Value.holdsReference_map, List.forall_mem_map]
      exact fun e he => hbelow e.2 ((holds_map hs).2 ⟨e, he, rfl⟩)

end Graph

/-! ## Compact records -/

namespace Value

/-- Whether JSON takes a value for the name of a member. -/
def isName : Value → Bool
  | .text _ | .mode _ | .int _ | .float _ | .nan _ | .bool _ | .null => true
  | _ => false

theorem isSome_intText? {n : Int} : (Number.intText? n).isSome = (Value.int n).isShort := by
  simp only [isShort, everywhere, hasText]

theorem isSome_compactKey {k : Value} (hw : k.isShort = true) :
    (compactKey k).isSome = k.isName := by
  cases k with
  | int n => exact isSome_intText?.trans hw
  | _ => rfl

theorem isSome_compactAll? {items : List Value} :
    (compactAll? items).isSome ↔ ∀ v ∈ items, v.compact?.isSome := by
  induction items with
  | nil => simp [compactAll?]
  | cons v rest ih =>
    rw [List.forall_mem_cons, ← ih, compactAll?]
    cases v.compact? <;> cases compactAll? rest <;> simp

theorem isSome_compactEntries? {entries : List (Value × Value)} :
    (compactEntries? entries).isSome ↔ ∀ e ∈ entries, (compactKey e.1).isSome ∧
    e.2.compact?.isSome := by
  induction entries with
  | nil => simp [compactEntries?]
  | cons e rest ih =>
    rw [List.forall_mem_cons, ← ih, compactEntries?]
    cases compactKey e.1 <;> cases e.2.compact? <;> cases compactEntries? rest <;> simp

theorem isSome_compact?_map {entries : List (Value × Value)} : (Value.map entries).compact?.isSome ↔
    ∀ e ∈ entries, (compactKey e.1).isSome ∧ e.2.compact?.isSome := by
  rw [← isSome_compactEntries?, compact?]
  cases compactEntries? entries <;> simp

theorem isSome_compact?_of {form : Form} {vs : List Value} (hf : form ≠ .set) :
    (form.of vs).compact?.isSome ↔ ∀ v ∈ vs, v.compact?.isSome := by
  rw [← isSome_compactAll?]
  cases form with
  | set => exact absurd rfl hf
  | list | tuple =>
    rw [Form.of, compact?]
    cases compactAll? vs <;> simp

theorem isSome_plain {v : Value} (hw : v.isShort = true) : v.plain.toOption.isSome := by
  cases h : v.plain with
  | ok s => rfl
  | error e => cases hw.symm.trans (plain_error h).2

/-- What has no members has a compact text if it has one at all. -/
theorem isSome_compact?_set {vs : List Value} (hw : (Value.set vs).isShort = true) :
    (Value.set vs).compact?.isSome := by
  simpa [compact?] using isSome_plain hw

theorem isSome_compact?_atom {v : Value} (ha : v.isAtom = true) (hc : v.isClosed = true)
    (hw : v.isShort = true) : v.compact?.isSome := by
  cases v with
  | list _ | tuple _ | set _ | map _ => cases ha
  | up n => simp [isClosed, isClosedIn] at hc
  | int n => exact isSome_intText?.trans hw
  | null | bool _ | float _ | nan _ | text _ | mode _ => rfl
  | _ => simpa [compact?] using isSome_plain hw

end Value

namespace Graph

variable {ι : Type} {g : Graph ι} {n : ι}

variable (g) in
/-- All keys below a node can be names. -/
def HasNamesFrom (n : ι) : Prop :=
  ∀ m entries, ReflTransGen g.Holds n m → g.shape m = .map entries →
    ∀ e ∈ entries, e.1.isName = true

theorem hasNamesFrom_iff : g.HasNamesFrom n ↔
    (∀ entries, g.shape n = .map entries → ∀ e ∈ entries, e.1.isName = true) ∧
      ∀ m, g.Holds n m → g.HasNamesFrom m := by
  refine ⟨fun h => ⟨fun entries => h n entries .refl, fun m hm k entries hk => ?_⟩, ?_⟩
  · exact h k entries (.head hm hk)
  rintro ⟨hn, hbelow⟩ m entries hm
  rcases ReflTransGen.cases_head hm with rfl | ⟨c, hc, hm⟩
  · exact hn entries
  · exact hbelow c hc m entries hm

variable [Fintype ι] [DecidableEq ι]

omit [Fintype ι] [DecidableEq ι] in
/-- What is below a set leads to nothing that leads to the set, and no map is among it. -/
theorem SetsHoldKeys.descends {around : List ι} {items : List ι} (hs : g.SetsHoldKeys)
    (h : g.shape n = .sequence .set items) (hpath : ∀ k ∈ around, TransGen g.Holds k n) :
    g.Descends around n ∧ g.HasNamesFrom n := by
  have hacyclic := hs.isAcyclicFrom h
  refine ⟨⟨fun m hm hmem => hacyclic m hm (.trans_left (hpath m hmem) hm), hacyclic⟩, ?_⟩
  exact fun m entries hm hmap => absurd hmap (hs.shape_ne_map h hm entries)

/-- JSON knows a node on a path just where the ways from it lead down, to keys that can be names.
Every node of the path leads to the next one, so what leads back to the path is in a cycle. -/
theorem compact?_tree_iff_of_path (hw : g.IsShort) (hs : g.SetsHoldKeys) {around : List ι} {n : ι}
    (h : ∀ k ∈ around, TransGen g.Holds k n) :
    (g.tree around n).compact?.isSome ↔ g.Descends around n ∧ g.HasNamesFrom n := by
  induction around, n using walk_induction with
  | step around n ih =>
    by_cases hn : n ∈ around
    · rw [tree_of_mem hn]
      exact iff_of_false (by simp [Value.compact?]) fun hd => hd.1.off n .refl hn
    have hbelow : ∀ m, g.Holds n m → ((g.tree (n :: around) m).compact?.isSome ↔
        g.Descends (n :: around) m ∧ g.HasNamesFrom m) := fun m hm => ih hn m fun k hk => by
      rcases List.mem_cons.1 hk with rfl | hk
      · exact .single hm
      · exact (h k hk).tail hm
    have hshort := tree_isShort hw around n
    rw [descends_iff hn, hasNamesFrom_iff]
    cases hshape : g.shape n with
    | atom a =>
      rw [tree_atom hn hshape] at hshort ⊢
      simpa [Holds, hshape, Shape.children] using Value.isSome_compact?_atom
        a.isAtom a.isClosed hshort
    | map entries =>
      have hkey : ∀ e ∈ entries, ((Value.compactKey e.1).isSome ↔ e.1.isName = true) :=
        fun e he => by
        rw [Value.isSome_compactKey (hw.keys n entries hshape e he)]
      rw [tree_map hn hshape, Value.isSome_compact?_map, List.forall_mem_map]
      constructor
      · intro hall
        have hvalue : ∀ m, g.Holds n m → g.Descends (n :: around) m ∧
          g.HasNamesFrom m := fun m hm => by
          obtain ⟨e, he, rfl⟩ := (holds_map hshape).1 hm
          exact (hbelow e.2 hm).1 (hall e he).2
        refine ⟨fun m hm => (hvalue m hm).1, ?_, fun m hm => (hvalue m hm).2⟩
        rintro _ ⟨⟩ e he
        exact (hkey e he).1 (hall e he).1
      · rintro ⟨hdown, hname, hnames⟩ e he
        have hm : g.Holds n e.2 := (holds_map hshape).2 ⟨e, he, rfl⟩
        exact ⟨(hkey e he).2 (hname entries rfl e he), (hbelow e.2 hm).2
          ⟨hdown e.2 hm, hnames e.2 hm⟩⟩
    | sequence form items =>
      by_cases hf : form = .set
      · subst hf
        rw [← hshape, ← descends_iff hn, ← hasNamesFrom_iff]
        rw [tree_sequence hn hshape] at hshort ⊢
        exact iff_of_true (Value.isSome_compact?_set hshort) (hs.descends hshape h)
      · rw [tree_sequence hn hshape, Value.isSome_compact?_of hf, List.forall_mem_map]
        constructor
        · intro hall
          have hitem : ∀ m, g.Holds n m → g.Descends (n :: around) m ∧ g.HasNamesFrom m :=
            fun m hm =>
            (hbelow m hm).1 (hall m ((holds_sequence hshape).1 hm))
          exact ⟨fun m hm => (hitem m hm).1, fun _ h => (nomatch h), fun m hm => (hitem m hm).2⟩
        · rintro ⟨hdown, -, hnames⟩ m hm
          have hm := (holds_sequence hshape).2 hm
          exact (hbelow m hm).2 ⟨hdown m hm, hnames m hm⟩

/-- JSON knows a node just where all keys below it can be names, and there is no cycle. -/
theorem compact?_tree_iff (hw : g.IsShort) (hs : g.SetsHoldKeys) :
    (g.tree [] n).compact?.isSome ↔ g.IsAcyclicFrom n ∧ g.HasNamesFrom n := by
  rw [compact?_tree_iff_of_path hw hs (by simp), descends_nil]

end Graph

end Attest
