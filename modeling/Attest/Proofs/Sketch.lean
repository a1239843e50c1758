import Attest.Proofs.Graph

/-!
# Rendering of graphs

How a node of a graph is written: by a walk through sequences that knows which of them it is inside
of. A sketch is what such a walk writes, before the texts are put together. The walk itself carries
one set of nodes along, to which a sequence is added when it is entered, and from which it is taken
when it is left, also when it could not be written.

* `visit_eq`: the walk ends, writes what the sketch says and leaves the set as it was.
* `part?_sketch_iff`: what stands where in a sketch.
* `formatted_tree`: a node is written like its tree as a value.
-/

open Relation (ReflTransGen TransGen)

namespace Attest

open Value (Formatted Place commaJoined)

/-- What a walk writes of a node. -/
inductive Sketch where
  /-- What becomes of what is no sequence, or the trouble with it. -/
  | text (written : Except Fault Formatted)
  /-- A sequence inside itself. -/
  | again
  /-- A sequence with all its items. -/
  | group (parts : List Sketch)

/-- The text of a sequence, if there is a text of each of its items. -/
def Value.Formatted.group (parts : List Formatted) : Except Fault Formatted := do
  return .text ("(" ++ commaJoined (← texts 0 parts) ++ ")")

namespace Sketch

mutual

/-- What becomes of a sketch. -/
def written : Sketch → Except Fault Formatted
  | .text s => s
  | .again => .ok (.text "(...)")
  | .group parts => do Formatted.group (← writtenAll parts)

def writtenAll : List Sketch → Except Fault (List Formatted)
  | [] => .ok []
  | part :: rest => do
    let first ← written part
    return first :: (← writtenAll rest)

end

/-- The part at a place: the numbers of the items that lead to it. -/
def part? (s : Sketch) : Place → Option Sketch
  | [] => some s
  | i :: place =>
    match s with
    | .group parts => (parts[i]?).bind (·.part? place)
    | _ => none

theorem writtenAll_ok {parts : List Sketch}
    (h : ∀ part ∈ parts, ∃ s, part.written = .ok (.text s)) :
    ∃ texts : List String, writtenAll parts = .ok (texts.map .text) := by
  induction parts with
  | nil => exact ⟨[], rfl⟩
  | cons part rest ih =>
    obtain ⟨s, hs⟩ := h part List.mem_cons_self
    obtain ⟨texts, htexts⟩ := ih fun p hp => h p (List.mem_cons_of_mem _ hp)
    exact ⟨s :: texts, by rw [writtenAll, hs, htexts]; rfl⟩

/-- Where all parts have a text, so does the whole. -/
theorem written_group_ok {parts : List Sketch}
    (h : ∀ part ∈ parts, ∃ s, part.written = .ok (.text s)) :
    ∃ s, (Sketch.group parts).written = .ok (.text s) := by
  obtain ⟨texts, htexts⟩ := writtenAll_ok h
  exact ⟨_, by rw [written, htexts, Attempt.ok_bind, Formatted.group, Formatted.texts_map]; rfl⟩

end Sketch

namespace Graph

variable {ι : Type} {g : Graph ι}

/-! ## The walk -/

/-- What a node is written as by a walk that is inside of the sequences of a path. -/
def sketch {ι : Type} [Fintype ι] [DecidableEq ι] (g : Graph ι) (path : List ι) (n : ι) : Sketch :=
  match g.shape n with
  | .atom a => .text a.value.formatAtom
  | .map _ => .text do return .text (← (g.tree [] n).formatMap)
  | .sequence _ items =>
    if _ : n ∈ path then .again else .group (items.map fun m => sketch g (n :: path) m)
termination_by room path.toFinset
decreasing_by exact room_cons ‹_›

/-- What becomes of a node in messages. -/
def formatted {ι : Type} [Fintype ι] [DecidableEq ι] (g : Graph ι) (n : ι) :
    Except Fault Formatted :=
  (g.sketch [] n).written

/-- Writes the nodes one after the other, until one cannot be written. -/
def visitAll {ι : Type} (visit : ι → Finset ι → Option (Except Fault Formatted × Finset ι)) :
    List ι → Finset ι → Option (Except Fault (List Formatted) × Finset ι)
  | [], seen => some (.ok [], seen)
  | m :: rest, seen => do
    match ← visit m seen with
    | (.error e, seen) => return (.error e, seen)
    | (.ok first, seen) =>
      let (others, seen) ← visitAll visit rest seen
      return (others.map (first :: ·), seen)

/-- Writes a node in at most so many steps down. `seen` holds the sequences that have been entered
and not left; it is handed on from step to step. -/
def visit {ι : Type} [Fintype ι] [DecidableEq ι] (g : Graph ι) :
    (fuel : Nat) → ι → (seen : Finset ι) → Option (Except Fault Formatted × Finset ι)
  | 0, _, _ => none
  | fuel + 1, n, seen =>
    match g.shape n with
    | .atom a => some (a.value.formatAtom, seen)
    | .map _ => some (do return .text (← (g.tree [] n).formatMap), seen)
    | .sequence _ items =>
      if n ∈ seen then some (.ok (.text "(...)"), seen)
      else do
        let (parts, seen) ← visitAll (g.visit fuel) items (insert n seen)
        return (parts >>= Formatted.group, seen.erase n)

/-- Nodes that are each written by themselves, and leave the set as it was, are written together. -/
theorem visitAll_eq {visit : ι → Finset ι → Option (Except Fault Formatted × Finset ι)}
    {sketch : ι → Sketch} {seen : Finset ι} {items : List ι}
    (h : ∀ m, visit m seen = some ((sketch m).written, seen)) :
    visitAll visit items seen = some (Sketch.writtenAll (items.map sketch), seen) := by
  induction items with
  | nil => rfl
  | cons m rest ih =>
    rw [visitAll, h, List.map_cons, Sketch.writtenAll]
    cases (sketch m).written with
    | error e => rfl
    | ok first =>
      simp only [Option.bind_eq_bind, Option.bind_some, ih]
      cases Sketch.writtenAll (rest.map sketch) <;> rfl

variable [Fintype ι] [DecidableEq ι] {path : List ι} {n : ι}

theorem sketch_atom {a : Atom} (h : g.shape n = .atom a) :
    g.sketch path n = .text a.value.formatAtom := by
  rw [sketch, h]

theorem sketch_map {entries : List (Value × ι)} (h : g.shape n = .map entries) :
    g.sketch path n = .text (do return .text (← (g.tree [] n).formatMap)) := by
  rw [sketch, h]

theorem sketch_of_mem {form : Form} {items : List ι} (h : g.shape n = .sequence form items)
    (hn : n ∈ path) : g.sketch path n = .again := by
  rw [sketch, h]
  exact dif_pos hn

theorem sketch_of_not_mem {form : Form} {items : List ι} (h : g.shape n = .sequence form items)
    (hn : n ∉ path) : g.sketch path n = .group (items.map (g.sketch (n :: path))) := by
  rw [sketch, h]
  exact dif_neg hn

/-- The walk has an end, whatever holds what, and is then inside of what it was inside of before. -/
theorem visit_eq {fuel : Nat} (h : room path.toFinset < fuel) :
    g.visit fuel n path.toFinset = some ((g.sketch path n).written, path.toFinset) := by
  induction fuel generalizing path n with
  | zero => omega
  | succ fuel ih =>
    rw [visit]
    cases hs : g.shape n with
    | atom a => rw [sketch_atom hs, Sketch.written]
    | map entries => rw [sketch_map hs, Sketch.written]
    | sequence form items =>
      by_cases hn : n ∈ path
      · rw [sketch_of_mem hs hn, Sketch.written]
        exact if_pos (List.mem_toFinset.2 hn)
      · have hroom := room_cons hn
        have hitem : ∀ m, g.visit fuel m (insert n path.toFinset) =
            some ((g.sketch (n :: path) m).written, insert n path.toFinset) := fun m => by
          rw [← List.toFinset_cons]
          exact ih (by omega)
        have hnew : n ∉ path.toFinset := by simpa using hn
        rw [sketch_of_not_mem hs hn, Sketch.written]
        simp only [if_neg hnew, visitAll_eq hitem, Option.bind_eq_bind, Option.bind_some,
          Finset.erase_insert hnew]
        cases Sketch.writtenAll (items.map (g.sketch (n :: path))) <;> rfl

omit [Fintype ι] [DecidableEq ι] in
variable (g) in
/-- Below a node there is a pattern that is written in bytes. -/
def HasBytesFrom (n : ι) : Prop :=
  ∃ m a, ReflTransGen g.Holds n m ∧ g.shape m = .atom a ∧ a.value.isBytesPattern = true

omit [Fintype ι] [DecidableEq ι] in
theorem HasBytesFrom.of_holds {n m : ι} (h : g.HasBytesFrom m) (hm : g.Holds n m) :
    g.HasBytesFrom n := by
  obtain ⟨k, a, hk, hs, hbytes⟩ := h
  exact ⟨k, a, .head hm hk, hs, hbytes⟩

/-- A node has a text, but for patterns that are written in bytes. -/
theorem written_sketch_ok (hw : g.IsShort) (path : List ι) (n : ι) (hn : ¬ g.HasBytesFrom n) :
    ∃ s, (g.sketch path n).written = .ok (.text s) := by
  induction path, n using walk_induction with
  | step path n ih =>
    cases hs : g.shape n with
    | atom a =>
      have hbytes : a.value.isBytesPattern = false :=
        Bool.eq_false_iff.2 fun hbytes => hn ⟨n, a, .refl, hs, hbytes⟩
      rw [sketch_atom hs, Sketch.written]
      exact Value.formatAtom_ok (hw.atoms n a hs) hbytes
    | map entries =>
      rw [sketch_map hs, Sketch.written]
      cases h : (g.tree [] n).formatMap with
      | ok s => exact ⟨s, rfl⟩
      | error e => cases (tree_isShort hw [] n).symm.trans (Value.formatMap_error h).2
    | sequence form items =>
      by_cases hmem : n ∈ path
      · exact ⟨_, by rw [sketch_of_mem hs hmem, Sketch.written]⟩
      · rw [sketch_of_not_mem hs hmem]
        refine Sketch.written_group_ok (List.forall_mem_map.2 fun m hm =>
          ih hmem m fun hbytes => ?_)
        exact hn (hbytes.of_holds ((holds_sequence hs).2 hm))

/-! ## Parts of a sketch -/

omit [Fintype ι] [DecidableEq ι] in
variable (g) in
/-- A place below a node leads to another one, through the sequences that are passed on the way. -/
inductive Leads : ι → Place → (passed : List ι) → ι → Prop where
  | here (n : ι) : Leads n [] [] n
  | item {n m k : ι} {form : Form} {items : List ι} {i : Nat} {place : Place} {passed : List ι}
      (h : g.shape n = .sequence form items) (hi : items[i]? = some m)
      (hw : Leads m place passed k) :
      Leads n (i :: place) (n :: passed) k

/-- There is a part at a place just where it is led to, passing no sequence twice. It is what the
node there is written as inside of the sequences that are passed. -/
theorem part?_sketch_iff {place : Place} {s : Sketch} : (g.sketch path n).part? place = some s ↔
    ∃ passed m, g.Leads n place passed m ∧ passed.Nodup ∧ (∀ k ∈ passed, k ∉ path) ∧
      s = g.sketch (passed.reverse ++ path) m := by
  induction place generalizing path n with
  | nil =>
    rw [Sketch.part?, Option.some.injEq]
    constructor
    · rintro rfl
      exact ⟨[], n, .here n, .nil, by simp, rfl⟩
    · rintro ⟨passed, m, ⟨⟩, -, -, rfl⟩
      rfl
  | cons i place ih =>
    constructor
    · intro h
      cases hs : g.shape n with
      | atom a =>
        rw [sketch_atom hs] at h
        cases h
      | map entries =>
        rw [sketch_map hs] at h
        cases h
      | sequence form items =>
        by_cases hn : n ∈ path
        · rw [sketch_of_mem hs hn] at h
          cases h
        · rw [sketch_of_not_mem hs hn, Sketch.part?, Option.bind_eq_some_iff] at h
          obtain ⟨part, hpart, h⟩ := h
          rw [List.getElem?_map, Option.map_eq_some_iff] at hpart
          obtain ⟨m, hi, rfl⟩ := hpart
          obtain ⟨passed, k, hw, hnodup, hoff, rfl⟩ := ih.1 h
          refine ⟨n :: passed, k, .item hs hi hw, ?_, ?_, by simp⟩
          · exact List.nodup_cons.2 ⟨fun hmem => hoff n hmem List.mem_cons_self, hnodup⟩
          · exact List.forall_mem_cons.2 ⟨hn, fun j hj hmem =>
              hoff j hj (List.mem_cons_of_mem _ hmem)⟩
    · rintro ⟨_, k, ⟨⟩ | ⟨hs, hi, hw⟩, hnodup, hoff, rfl⟩
      rename_i m form items passed
      obtain ⟨hn, hoff⟩ := List.forall_mem_cons.1 hoff
      obtain ⟨hnew, hnodup⟩ := List.nodup_cons.1 hnodup
      rw [sketch_of_not_mem hs hn, Sketch.part?, List.getElem?_map, hi]
      refine ih.2 ⟨passed, k, hw, hnodup, fun j hj hmem => ?_, by simp⟩
      rcases List.mem_cons.1 hmem with rfl | hmem
      · exact hnew hj
      · exact hoff j hj hmem

theorem part?_of_leads {place : Place} {passed : List ι} {m : ι} (h : g.Leads n place passed m)
    (hnodup : passed.Nodup) : (g.sketch [] n).part? place = some (g.sketch passed.reverse m) :=
  part?_sketch_iff.2 ⟨passed, m, h, hnodup, by simp, by rw [List.append_nil]⟩

theorem sketch_eq_again_iff : g.sketch path n = .again ↔
    (∃ form items, g.shape n = .sequence form items) ∧ n ∈ path := by
  cases hs : g.shape n with
  | atom a => simp [sketch_atom hs]
  | map entries => simp [sketch_map hs]
  | sequence form items =>
    by_cases hn : n ∈ path
    · simp [sketch_of_mem hs hn, hn]
    · simp [sketch_of_not_mem hs hn, hn]

/-- An ellipsis stands just where a sequence is met inside itself. -/
theorem part?_eq_again_iff {place : Place} : (g.sketch [] n).part? place = some .again ↔
    ∃ passed m form items, g.Leads n place passed m ∧ passed.Nodup ∧
    g.shape m = .sequence form items ∧
      m ∈ passed := by
  rw [part?_sketch_iff]
  constructor
  · rintro ⟨passed, m, hleads, hnodup, -, hagain⟩
    rw [List.append_nil] at hagain
    obtain ⟨⟨form, items, hs⟩, hmem⟩ := sketch_eq_again_iff.1 hagain.symm
    exact ⟨passed, m, form, items, hleads, hnodup, hs, List.mem_reverse.1 hmem⟩
  · rintro ⟨passed, m, form, items, hleads, hnodup, hs, hmem⟩
    refine ⟨passed, m, hleads, hnodup, by simp, ?_⟩
    rw [List.append_nil]
    exact (sketch_eq_again_iff.2 ⟨⟨form, items, hs⟩, List.mem_reverse.2 hmem⟩).symm

/-- Sequences that are not led back to through items leave no mark. -/
theorem sketch_append {outer : List ι} (path : List ι) (n : ι)
    (h : ∀ m place passed, g.Leads n place passed m → m ∉ outer) :
    g.sketch (path ++ outer) n = g.sketch path n := by
  induction path, n using walk_induction with
  | step path n ih =>
    cases hs : g.shape n with
    | atom a => rw [sketch_atom hs, sketch_atom hs]
    | map entries => rw [sketch_map hs, sketch_map hs]
    | sequence form items =>
      by_cases hn : n ∈ path
      · rw [sketch_of_mem hs hn, sketch_of_mem hs (List.mem_append_left _ hn)]
      · have hn' : n ∉ path ++ outer := by simpa [hn] using h n [] [] (.here n)
        rw [sketch_of_not_mem hs hn, sketch_of_not_mem hs hn']
        congr 1
        refine List.map_congr_left fun m hm => ih hn m fun k place passed hk => ?_
        obtain ⟨i, hi⟩ := List.mem_iff_getElem?.1 hm
        exact h k (i :: place) (n :: passed) (.item hs hi hk)

/-- A map is a compact record where all keys below it can be names and it has no cycle, and is shown
explicitly otherwise. -/
theorem formatted_map {entries : List (Value × ι)} (hw : g.IsShort) (hs : g.SetsHoldKeys)
    (h : g.shape n = .map entries) :
    (g.IsAcyclicFrom n ∧ g.HasNamesFrom n →
        ∃ s, (g.tree [] n).compact? = some s ∧ g.formatted n = .ok (.text s)) ∧
      (¬ (g.IsAcyclicFrom n ∧ g.HasNamesFrom n) →
        (g.tree [] n).compact? = none ∧ g.formatted n = (g.tree [] n).shown.map .text) := by
  have hformatted : g.formatted n = (g.tree [] n).formatMap.map .text := by
    rw [formatted, sketch_map h, Sketch.written]
    cases (g.tree [] n).formatMap <;> rfl
  rw [← compact?_tree_iff hw hs, hformatted, Value.formatMap]
  cases (g.tree [] n).compact? with
  | some s => exact ⟨fun _ => ⟨s, rfl, rfl⟩, fun hnone => absurd rfl hnone⟩
  | none => exact ⟨nofun, fun _ => ⟨rfl, rfl⟩⟩

/-! ## Nodes and their trees -/

end Graph

namespace Value

variable {whole : Value} {place : Place}

theorem formatAt_of (form : Form) (vs : List Value) : formatAt whole place (form.of vs) =
    (do Formatted.group (← formatAll whole place 0 vs)) := by
  cases form <;> rfl

theorem formatAt_atom (a : Atom) : formatAt whole place a.value = a.value.formatAtom := by
  obtain ⟨v, ha, hc⟩ := a
  cases v <;> first | rfl | (cases ha; done) | simp [isClosed, isClosedIn] at hc

/-- Items that are each written like a part of a sketch are written like all its parts. -/
theorem formatAll_eq {vs : List Value} {parts : List Sketch} {i : Nat}
    (hlen : vs.length = parts.length) (h : ∀ k v part, vs[k]? = some v → parts[k]? = some part →
      formatAt whole (place ++ [i + k]) v = part.written) :
    formatAll whole place i vs = Sketch.writtenAll parts := by
  induction vs generalizing i parts with
  | nil =>
    rw [List.length_eq_zero_iff.1 hlen.symm]
    rfl
  | cons v rest ih =>
    cases parts with
    | nil => cases hlen
    | cons part parts =>
      have hfirst : formatAt whole (place ++ [i]) v = part.written := h 0 v part rfl rfl
      have hrest : formatAll whole place (i + 1) rest = Sketch.writtenAll parts :=
        ih (Nat.succ.inj hlen) fun k v part hv hp => by
          rw [Nat.add_right_comm]
          exact h (k + 1) v part hv hp
      rw [formatAll, Sketch.writtenAll, hfirst, hrest]

end Value

namespace Graph

variable {ι : Type} {g : Graph ι}

variable (g) in
/-- No cycle below a node goes through both a sequence and a map. -/
def IsUnmixedFrom (n : ι) : Prop :=
  ∀ k m form items entries, ReflTransGen g.Holds n k → g.shape k = .sequence form items →
    g.shape m = .map entries → ReflTransGen g.Holds k m → ¬ ReflTransGen g.Holds m k

theorem IsUnmixedFrom.of_holds {n m : ι} (h : g.IsUnmixedFrom n) (hm : g.Holds n m) :
    g.IsUnmixedFrom m :=
  fun k m' form items entries hk => h k m' form items entries (.head hm hk)

theorem IsAcyclicFrom.isUnmixedFrom {n : ι} (h : g.IsAcyclicFrom n) : g.IsUnmixedFrom n := by
  intro k m form items entries hk hs hm hdown hup
  rcases ReflTransGen.cases_head hdown with rfl | ⟨c, hc, hdown⟩
  · rw [hs] at hm
    cases hm
  · exact h k hk (.head' hc (hdown.trans hup))

variable [Fintype ι] [DecidableEq ι]

/-- A node is written like its tree, wherever that stands, if the path to it goes through sequences
only and no map leads back to them. -/
theorem formatAt_tree {whole : Value} (path : List ι) (n : ι) (hn : g.IsUnmixedFrom n)
    (hpath : ∀ k ∈ path, (∃ form items, g.shape k = .sequence form items) ∧
      ReflTransGen g.Holds k n ∧
      g.IsUnmixedFrom k) (place : Place) :
    Value.formatAt whole place (g.tree path n) = (g.sketch path n).written := by
  induction path, n using walk_induction generalizing place with
  | step path n ih =>
    by_cases hmem : n ∈ path
    · obtain ⟨⟨form, items, hs⟩, -⟩ := hpath n hmem
      rw [tree_of_mem hmem, sketch_of_mem hs hmem]
      rfl
    cases hs : g.shape n with
    | atom a => rw [tree_atom hmem hs, sketch_atom hs, Value.formatAt_atom, Sketch.written]
    | map entries =>
      have hoff : ∀ m, ReflTransGen g.Holds n m → m ∉ path := fun m hm hmem => by
        obtain ⟨⟨form, items, hseq⟩, hdown, hunmixed⟩ := hpath m hmem
        exact hunmixed m n form items entries .refl hseq hs hdown hm
      have hclosed := tree_isClosed (g := g) n
      rw [tree_eq_of_not_reaches hoff, sketch_map hs, Sketch.written]
      rw [tree_map (List.not_mem_nil) hs] at hclosed ⊢
      rw [Value.formatAt, Value.takenOut_of_isClosed _ _ hclosed]
    | sequence form items =>
      have hitem : ∀ m ∈ items, ∀ place, Value.formatAt whole place (g.tree (n :: path) m) =
          (g.sketch (n :: path) m).written := fun m hm place => by
        have hm : g.Holds n m := (holds_sequence hs).2 hm
        refine ih hmem m (hn.of_holds hm) (fun k hk => ?_) place
        rcases List.mem_cons.1 hk with rfl | hk
        · exact ⟨⟨form, items, hs⟩, .single hm, hn⟩
        · obtain ⟨hseq, hdown, hunmixed⟩ := hpath k hk
          exact ⟨hseq, hdown.tail hm, hunmixed⟩
      rw [tree_sequence hmem hs, sketch_of_not_mem hs hmem, Value.formatAt_of, Sketch.written]
      have hlen : (items.map (g.tree (n :: path))).length =
          (items.map (g.sketch (n :: path))).length := by simp
      rw [Value.formatAll_eq hlen fun i v part hv hpart => ?_]
      rw [List.getElem?_map, Option.map_eq_some_iff] at hv hpart
      obtain ⟨m, hi, rfl⟩ := hv
      obtain ⟨_, hi', rfl⟩ := hpart
      rw [hi, Option.some.injEq] at hi'
      exact hi' ▸ hitem m (List.mem_of_getElem? hi) _

/-- A node is written like its tree. -/
theorem formatted_tree {n : ι} (h : g.IsUnmixedFrom n) : (g.tree [] n).formatted = g.formatted n :=
  formatAt_tree [] n h (fun _ hk => (List.not_mem_nil hk).elim) []

end Graph

/-! ## Writing without heed -/

namespace Value

mutual

/-- What becomes of a value in messages, by recursion on the value alone. -/
def formatPlainly : Value → Except Fault Formatted
  | .list items | .tuple items | .set items => do Formatted.group (← formatAllPlainly items)
  | .map entries => do return .text (← formatMap (.map entries))
  | v => formatAtom v

def formatAllPlainly : List Value → Except Fault (List Formatted)
  | [] => .ok []
  | v :: rest => do
    let first ← formatPlainly v
    return first :: (← formatAllPlainly rest)

end

theorem formatPlainly_of (form : Form) (vs : List Value) : formatPlainly (form.of vs) =
    (do Formatted.group (← formatAllPlainly vs)) := by
  cases form <;> rfl

theorem formatAll_eq_formatAllPlainly {whole : Value} {place : Place} {i : Nat} {vs : List Value}
    (h : ∀ v ∈ vs, ∀ place, formatAt whole place v = v.formatPlainly) :
    formatAll whole place i vs = formatAllPlainly vs := by
  induction vs generalizing i with
  | nil => rfl
  | cons v rest ih =>
    rw [formatAll, h v List.mem_cons_self, ih fun v hv => h v (List.mem_cons_of_mem _ hv)]
    rfl

/-- Where nothing refers back there is nothing to heed. -/
theorem formatAt_eq_formatPlainly {whole v : Value} (h : v.holdsReference = false) (place : Place) :
    formatAt whole place v = v.formatPlainly := by
  induction v using forms_induction generalizing place with
  | sequence form vs ih =>
    rw [Form.holdsReference_of] at h
    rw [formatAt_of, formatPlainly_of, formatAll_eq_formatAllPlainly fun v hv => ih v hv (h v hv)]
  | map entries =>
    rw [formatAt, takenOut_of_isClosed _ _ (isClosedIn_of_holdsReference h), formatPlainly]
  | atom v ha => cases v <;> first | rfl | (cases ha; done) | cases h

end Value

namespace Graph

variable {ι : Type} {g : Graph ι} [Fintype ι] [DecidableEq ι]

/-- Where there is no cycle a node is written by recursion on its tree alone. -/
theorem formatted_eq_formatPlainly {n : ι} (h : g.IsAcyclicFrom n) :
    g.formatted n = (g.tree [] n).formatPlainly := by
  rw [← formatted_tree h.isUnmixedFrom]
  exact Value.formatAt_eq_formatPlainly (holdsReference_tree (descends_nil.2 h)) []

end Graph

end Attest
