import Attest.Proofs.Sketch

/-!
# Values as their own graphs

A value is a graph of its places, where a reference is the place that it leads to. Taking a part out
of the value walks through this graph, so the part is the tree of its place.

* `tree_root`: a value is the tree of its own graph.
* `takenOut_eq_tree`: so is every part of it.
* `formatted_graph`: a value is written like its graph.
-/

namespace Attest

namespace Value

/-! ## Places -/

mutual

/-- The places of a value, its own first. -/
def places : Value → List Place
  | .list items | .tuple items | .set items => [] :: placesOfAll 0 items
  | .map entries => [] :: placesOfEntries 0 entries
  | _ => [[]]

/-- The places below a container, from its `i`-th item on. -/
def placesOfAll (i : Nat) : List Value → List Place
  | [] => []
  | v :: rest => (places v).map (i :: ·) ++ placesOfAll (i + 1) rest

def placesOfEntries (i : Nat) : List (Value × Value) → List Place
  | [] => []
  | (_, v) :: rest => (places v).map (i :: ·) ++ placesOfEntries (i + 1) rest

end

mutual

theorem length_places : ∀ v : Value, v.places.length = v.nodes
  | .list items | .tuple items | .set items => by
    rw [places, List.length_cons, length_placesOfAll, nodes]
  | .map entries => by rw [places, List.length_cons, length_placesOfEntries, nodes]
  | .missing | .null | .bool _ | .int _ | .float _ | .nan _ | .text _ | .bytes _ | .moment _
  | .date _
  | .time _ | .pattern _ | .mode _ | .type _ | .object _ | .function _ | .validator _ _ _
  | .up _ => rfl

theorem length_placesOfAll : ∀ (i : Nat) (items : List Value),
    (placesOfAll i items).length = nodesOfAll items
  | _, [] => rfl
  | i, v :: rest => by
    rw [placesOfAll, List.length_append, List.length_map, length_places v,
      length_placesOfAll, nodesOfAll]

theorem length_placesOfEntries : ∀ (i : Nat) (entries : List (Value × Value)),
    (placesOfEntries i entries).length = nodesOfEntries entries
  | _, [] => rfl
  | i, (_, v) :: rest => by
    rw [placesOfEntries, List.length_append, List.length_map, length_places v,
      length_placesOfEntries, nodesOfEntries]

end

theorem mem_placesOfAll {items : List Value} {i k : Nat} {u : Value} {place : Place}
    (hk : items[k]? = some u) (h : place ∈ u.places) : (i + k) :: place ∈ placesOfAll i items := by
  induction items generalizing i k with
  | nil => cases hk
  | cons v rest ih =>
    rw [placesOfAll, List.mem_append]
    cases k with
    | zero =>
      cases hk
      exact .inl (List.mem_map.2 ⟨place, h, rfl⟩)
    | succ k =>
      right
      rw [← Nat.add_assoc, Nat.add_right_comm]
      exact ih hk

theorem placesOfEntries_eq (i : Nat) (entries : List (Value × Value)) :
    placesOfEntries i entries = placesOfAll i (entries.map (·.2)) := by
  induction entries generalizing i with
  | nil => rfl
  | cons e rest ih => rw [placesOfEntries, List.map_cons, placesOfAll, ih]

theorem nil_mem_places (v : Value) : [] ∈ v.places := by
  cases v <;> exact List.mem_cons_self

theorem mem_places_of_child? {v u : Value} {i : Nat} {place : Place} (hc : v.child? i = some u)
    (h : place ∈ u.places) : i :: place ∈ v.places := by
  rw [← Nat.zero_add i]
  unfold child? at hc
  split at hc
  case h_4 entries =>
    rw [← List.getElem?_map] at hc
    rw [places, placesOfEntries_eq]
    exact List.mem_cons_of_mem _ (mem_placesOfAll hc h)
  case h_5 => cases hc
  all_goals exact List.mem_cons_of_mem _ (mem_placesOfAll hc h)

/-- Where something stands, there is a place. -/
theorem mem_places_of_at? : ∀ {place : Place} {v u : Value}, v.at? place = some u → place ∈ v.places
  | [], v, _, _ => v.nil_mem_places
  | _ :: _, _, _, h => by
    obtain ⟨w, hw, h⟩ := Option.bind_eq_some_iff.1 h
    exact mem_places_of_child? hw (mem_places_of_at? h)

/-! ## The graph of a value -/

/-- The places of a value as the nodes of a graph. -/
abbrev Node (v : Value) : Type := { place : Place // place ∈ v.places }

/-- The node at a place. -/
def node (v : Value) (place : Place) : v.Node :=
  if h : place ∈ v.places then ⟨place, h⟩ else ⟨[], v.nil_mem_places⟩

/-- A value that holds no others as an atom. -/
def atom (v : Value) : Atom :=
  if h : v.isAtom = true ∧ v.isClosed = true then ⟨v, h.1, h.2⟩ else ⟨.missing, rfl, rfl⟩

/-- The shape of a value whose `i`-th child is a node that is given. -/
def shape {ι : Type} (child : Nat → ι) : Value → Shape ι
  | .list items => .sequence .list (items.mapIdx fun i _ => child i)
  | .tuple items => .sequence .tuple (items.mapIdx fun i _ => child i)
  | .set items => .sequence .set (items.mapIdx fun i _ => child i)
  | .map entries => .map (entries.mapIdx fun i e => (e.1, child i))
  | v => .atom v.atom

/-- A value as a graph: what stands at each place, with references as what they lead to. -/
def graph (v : Value) : Graph v.Node where
  shape n := ((v.at? n.1).getD .missing).shape fun i => v.node (v.placeOfChild n.1 i)

/-- The node of the value itself. -/
def root (v : Value) : v.Node := v.node []

variable {v u : Value} {place : Place}

theorem node_val (h : v.at? place = some u) : (v.node place).1 = place := by
  rw [node, dif_pos (mem_places_of_at? h)]

theorem node_eq (n : v.Node) : v.node n.1 = n := by
  rw [node, dif_pos n.2]

theorem shape_of {ι : Type} (child : Nat → ι) (form : Form) (vs : List Value) :
    shape child (form.of vs) = .sequence form (vs.mapIdx fun i _ => child i) := by
  cases form <;> rfl

theorem shape_atom {ι : Type} (child : Nat → ι) (h : u.isAtom = true) :
    shape child u = .atom u.atom := by
  cases u <;> first | rfl | cases h

theorem atom_value (ha : v.isAtom = true) (hc : v.isClosed = true) : v.atom.value = v := by
  rw [atom, dif_pos ⟨ha, hc⟩]

/-- What holds no values is closed, if it is no reference. -/
theorem isClosed_of_isAtom (ha : u.isAtom = true) (hu : ∀ n, u ≠ .up n) : u.isClosed = true := by
  cases u <;> first | rfl | (cases ha; done) | exact absurd rfl (hu _)

theorem ne_up_of_isClosed (h : u.isClosed = true) (n : Nat) : u ≠ .up n := by
  rintro rfl
  simp [isClosed, isClosedIn] at h

theorem graph_shape (h : v.at? place = some u) :
    v.graph.shape (v.node place) = u.shape fun i => v.node (v.placeOfChild place i) := by
  show shape (fun i => v.node (v.placeOfChild (v.node place).1 i))
    ((v.at? (v.node place).1).getD .missing) = _
  rw [node_val h, h]
  rfl

/-- Where a child is that is no reference. -/
theorem placeOfChild_eq {i : Nat} (h : v.at? (place ++ [i]) = some u) (hu : ∀ n, u ≠ .up n) :
    v.placeOfChild place i = place ++ [i] := by
  unfold placeOfChild
  rw [h]
  split
  · next n hn => exact absurd (Option.some.inj hn) (hu n)
  · rfl

theorem placeOfChild_up {i n : Nat} (h : v.at? (place ++ [i]) = some (.up n)) :
    v.placeOfChild place i = place.take (place.length - n) := by
  unfold placeOfChild
  rw [h]

/-! ## Trees of places -/

/-- A child of a container stands one step below it. -/
theorem at?_child {i : Nat} {w : Value} (h : v.at? place = some u) (hw : u.child? i = some w) :
    v.at? (place ++ [i]) = some w := by
  rw [at?_append, h]
  exact hw

theorem child?_of {form : Form} {vs : List Value} {i : Nat} : (form.of vs).child? i = vs[i]? := by
  cases form <;> rfl

theorem isClosedIn_child {d i : Nat} {w : Value} (h : u.isClosedIn d = true)
    (hw : u.child? i = some w) :
    w.isClosedIn (d + 1) = true := by
  unfold child? at hw
  split at hw
  case h_4 entries =>
    obtain ⟨e, he, rfl⟩ := Option.map_eq_some_iff.1 hw
    exact isClosedIn_map.1 h e (List.mem_of_getElem? he)
  case h_5 => cases hw
  all_goals exact areClosedIn_iff.1 h w (List.mem_of_getElem? hw)

/-- A container is the tree of its node where its children are the trees of theirs. -/
theorem tree_node {around : List v.Node} (h : v.at? place = some u) (hu : ∀ n, u ≠ .up n)
    (hn : v.node place ∉ around) {f : Nat → Value → Value}
    (hf : ∀ i w, u.child? i = some w →
      v.graph.tree (v.node place :: around) (v.node (v.placeOfChild place i)) = f i w) :
    v.graph.tree around (v.node place) = u.mapChildren f := by
  have hshape := graph_shape h
  induction u using forms_induction with
  | sequence form vs =>
    rw [shape_of] at hshape
    have hmap : (form.of vs).mapChildren f = form.of (vs.mapIdx f) := by cases form <;> rfl
    rw [Graph.tree_sequence hn hshape, hmap]
    congr 1
    refine List.ext_getElem (by simp) fun i _ hi => ?_
    simp only [List.length_mapIdx] at hi
    simp only [List.getElem_map, List.getElem_mapIdx]
    exact hf i vs[i] (child?_of.trans (List.getElem?_eq_getElem hi))
  | map entries =>
    rw [Graph.tree_map hn hshape, mapChildren]
    congr 1
    refine List.ext_getElem (by simp) fun i _ hi => ?_
    simp only [List.length_mapIdx] at hi
    simp only [List.getElem_map, List.getElem_mapIdx]
    rw [hf i entries[i].2 (by simp [child?, hi])]
  | atom u ha =>
    rw [shape_atom _ ha] at hshape
    rw [Graph.tree_atom hn hshape, atom_value ha (isClosed_of_isAtom ha hu)]
    cases u <;> first | rfl | cases ha

theorem mapChildren_id (u : Value) : u.mapChildren (fun _ w => w) = u := by
  have hitems : ∀ vs : List Value, vs.mapIdx (fun _ w => w) = vs := fun vs =>
    List.ext_getElem (by simp) fun i _ _ => by rw [List.getElem_mapIdx]
  cases u with
  | list vs | tuple vs | set vs => rw [mapChildren, hitems]
  | map entries =>
    rw [mapChildren]
    congr 1
    exact List.ext_getElem (by simp) fun i _ _ => by rw [List.getElem_mapIdx]
  | _ => rfl

/-- A part whose references lead to the containers that the walk has come through is its own tree.
`around` begins with these containers, from the inside, and the walk has not been at the part or
below it. -/
theorem tree_eq_self {u : Value} {place : Place} {d : Nat} {around : List v.Node}
    (h : v.at? place = some u) (hu : ∀ n, u ≠ .up n) (hclosed : u.isClosedIn d = true)
    (hnodup : around.Nodup) (hd : d ≤ place.length)
    (hnear : ∀ k < d, around[k]? = some (v.node (place.take (place.length - 1 - k))))
    (hoff : ∀ o ∈ around, ¬ place <+: o.1) : v.graph.tree around (v.node place) = u := by
  have hn : v.node place ∉ around := fun hmem => hoff _ hmem (by rw [node_val h])
  refine (tree_node h hu hn fun i w hw => ?_).trans (mapChildren_id u)
  have hat := at?_child h hw
  have hbelow := isClosedIn_child hclosed hw
  have hnodup' := List.nodup_cons.2 ⟨hn, hnodup⟩
  by_cases hup : ∃ k, w = .up k
  · obtain ⟨k, rfl⟩ := hup
    have hk : k < d + 1 := by simpa [isClosedIn] using hbelow
    have hget : (v.node place :: around)[k]? = some (v.node (v.placeOfChild place i)) := by
      rw [placeOfChild_up hat]
      cases k with
      | zero => simp
      | succ k => rw [List.getElem?_cons_succ, hnear k (by omega), Nat.sub_sub, Nat.add_comm]
    exact Graph.tree_of_getElem? hnodup' hget
  · have hw' : ∀ k, w ≠ .up k := by simpa using hup
    rw [placeOfChild_eq hat hw']
    refine tree_eq_self hat hw' hbelow hnodup' (by simpa using hd) (fun k hk => ?_) ?_
    · have hlen : (place ++ [i]).length - 1 - k = place.length - k := by simp
      rw [hlen, List.take_append_of_le_length (by omega)]
      cases k with
      | zero => simp
      | succ k => rw [List.getElem?_cons_succ, hnear k (by omega), Nat.sub_sub, Nat.add_comm]
    · refine List.forall_mem_cons.2 ⟨fun hle => ?_, fun o ho hle => ?_⟩
      · have := hle.length_le
        rw [node_val h, List.length_append, List.length_singleton] at this
        omega
      · exact hoff o ho ((List.prefix_append place [i]).trans hle)
termination_by u.nodes
decreasing_by exact nodes_child? hw

/-- A value is the tree of its own graph. -/
theorem tree_root (hv : v.isClosed = true) : v.graph.tree [] v.root = v :=
  tree_eq_self rfl (ne_up_of_isClosed hv) hv .nil (Nat.le_refl 0) (by simp) (by simp)

/-! ## Parts -/

/-- What stands at a place refers to nothing outside it. -/
def ClosedAt (v : Value) (place : Place) : Prop := ∃ u, v.at? place = some u ∧ u.isClosed = true

/-- A place is inside of another one, and inside of no closed part that stands deeper. -/
structure Within (v : Value) (top place : Place) : Prop where
  below : top <+: place
  least : ∀ q, q <+: place → v.ClosedAt q → q <+: top

/-- Every place of a closed value is inside of a deepest closed part. -/
theorem exists_within (hv : v.isClosed = true) (place : Place) :
    ∃ top, v.ClosedAt top ∧ v.Within top place := by
  induction place using List.reverseRecOn with
  | nil => exact ⟨[], ⟨v, rfl, hv⟩, List.prefix_rfl, fun _ hq _ => hq⟩
  | append_singleton place i ih =>
    by_cases hclosed : v.ClosedAt (place ++ [i])
    · exact ⟨_, hclosed, List.prefix_rfl, fun _ hq _ => hq⟩
    · obtain ⟨top, htop, hwithin⟩ := ih
      refine ⟨top, htop, hwithin.below.trans (List.prefix_append _ _), fun q hq hqc => ?_⟩
      rcases List.prefix_concat_iff.1 hq with rfl | hq
      · exact absurd hqc hclosed
      · exact hwithin.least q hq hqc

theorem isClosedIn_at? {d : Nat} (hv : v.isClosedIn d = true) (h : v.at? place = some u) :
    u.isClosedIn (d + place.length) = true := by
  induction place generalizing v d with
  | nil =>
    cases h
    exact hv
  | cons i place ih =>
    obtain ⟨w, hw, h⟩ := Option.bind_eq_some_iff.1 h
    rw [List.length_cons, Nat.add_comm place.length, ← Nat.add_assoc]
    exact ih (isClosedIn_child hv hw) h

/-- A reference inside of a closed part leads no further than to that part. -/
theorem Within.take {top : Place} {k : Nat} (htop : v.ClosedAt top)
    (h : v.Within top place) {i : Nat} (hat : v.at? (place ++ [i]) = some (.up k)) :
    v.Within top (place.take (place.length - k)) := by
  obtain ⟨t, ht, hclosed⟩ := htop
  obtain ⟨rest, rfl⟩ := h.below
  have hk : k < 0 + (rest ++ [i]).length := by
    rw [List.append_assoc, at?_append_place, ht] at hat
    simpa [isClosedIn] using isClosedIn_at? hclosed hat
  refine ⟨?_, fun q hq hqc => h.least q (hq.trans (List.take_prefix _ _)) hqc⟩
  rw [List.prefix_take_iff]
  refine ⟨List.prefix_append _ _, ?_⟩
  simp only [List.length_append, List.length_singleton] at hk ⊢
  omega

/-- The way to a part that is not closed leads into no closed part. -/
theorem Within.child {top : Place} {i : Nat} {w : Value} (h : v.Within top place)
    (hat : v.at? (place ++ [i]) = some w) (hw : w.isClosed = false) :
    v.Within top (place ++ [i]) := by
  refine ⟨h.below.trans (List.prefix_append _ _), fun q hq hqc => ?_⟩
  rcases List.prefix_concat_iff.1 hq with rfl | hq
  · obtain ⟨u, hu, hclosed⟩ := hqc
    rw [hat, Option.some.injEq] at hu
    rw [hu, hclosed] at hw
    cases hw
  · exact h.least q hq hqc

theorem placeOfChild_match {i : Nat} {w : Value} : v.at? (place ++ [i]) = some w →
    v.placeOfChild place i = match w with
      | .up n => place.take (place.length - n)
      | _ => place ++ [i] := by
  intro hat
  unfold placeOfChild
  rw [hat]
  cases w <;> rfl

theorem idxOf?_map {α β : Type} [DecidableEq α] [BEq β] [LawfulBEq β] {f : α → β}
    (hf : Function.Injective f) (l : List α) (a : α) :
    (l.map f).idxOf? (f a) = if a ∈ l then some (l.idxOf a) else none := by
  induction l with
  | nil => rfl
  | cons b l ih =>
    rw [List.map_cons, List.idxOf?_cons, ih, List.idxOf_cons]
    by_cases hb : b = a
    · simp [hb]
    · have hfb : f b ≠ f a := fun h => hb (hf h)
      have hba : (b == a) = false := beq_false_of_ne hb
      by_cases ha : a ∈ l <;> simp [hba, hfb, ha, Ne.symm hb]

/-- A child, or what it refers to, is somewhere, and is no reference itself. -/
theorem at?_placeOfChild {i : Nat} {w : Value} (h : v.at? place = some u) (hu : ∀ n, u ≠ .up n)
    (hat : v.at? (place ++ [i]) = some w) :
    ∃ x, v.at? (v.placeOfChild place i) = some x ∧ ∀ n, x ≠ .up n := by
  by_cases hup : ∃ k, w = .up k
  · obtain ⟨k, rfl⟩ := hup
    rw [placeOfChild_up hat]
    exact at?_take_of_ne_up h hu (place.length - k)
  · have hw : ∀ k, w ≠ .up k := by simpa using hup
    rw [placeOfChild_eq hat hw]
    exact ⟨w, hat, hw⟩

theorem Within.placeOfChild {top : Place} {i : Nat} {w : Value} (htop : v.ClosedAt top)
    (h : v.Within top place) (hat : v.at? (place ++ [i]) = some w) (hw : w.isClosed = false) :
    v.Within top (v.placeOfChild place i) := by
  by_cases hup : ∃ k, w = .up k
  · obtain ⟨k, rfl⟩ := hup
    rw [placeOfChild_up hat]
    exact h.take htop hat
  · rw [placeOfChild_eq hat (by simpa using hup)]
    exact h.child hat hw

/-- A walk is inside of fewer places than the value has nodes, if it comes to a new one. -/
theorem length_lt_nodes {n : v.Node} {around : List v.Node} (hnodup : (n :: around).Nodup) :
    around.length < v.nodes := by
  have hsub : (n :: around).map (·.1) ⊆ v.places := by
    intro q hq
    obtain ⟨o, -, rfl⟩ := List.mem_map.1 hq
    exact o.2
  have hle := (List.subperm_of_subset (hnodup.map Subtype.val_injective) hsub).length_le
  rwa [length_places, List.length_map, List.length_cons] at hle

/-- A place as a walk comes to it: a reference where the walk is inside of it, else unfolded. -/
def reached (v : Value) (fuel : Nat) (around : List Place) (target : Place) : Value :=
  match around.idxOf? target with
  | some n => .up n
  | none => unfold v fuel around target

/-- A walk that knows the places around it is the walk through the graph. It comes to new places
only, so it is not deeper than the value has nodes. -/
theorem unfold_eq_tree {top : Place} (htop : v.ClosedAt top) (fuel : Nat) {around : List v.Node}
    {u : Value} {place : Place} (h : v.at? place = some u) (hu : ∀ n, u ≠ .up n)
    (hnodup : (v.node place :: around).Nodup)
    (hwithin : ∀ o ∈ v.node place :: around, v.Within top o.1)
    (hfuel : v.nodes ≤ fuel + around.length) :
    unfold v fuel (around.map (·.1)) place = v.graph.tree around (v.node place) := by
  induction fuel generalizing around u place with
  | zero =>
    have hlt := length_lt_nodes hnodup
    omega
  | succ fuel ih =>
    have hplace : v.Within top place := by
      have := hwithin _ List.mem_cons_self
      rwa [node_val h] at this
    unfold unfold
    rw [h]
    symm
    refine tree_node h hu (List.nodup_cons.1 hnodup).1 fun i w hw => ?_
    have hat := at?_child h hw
    by_cases hclosed : w.isClosed = true
    · have hw' := ne_up_of_isClosed hclosed
      rw [placeOfChild_eq hat hw']
      simp only [hclosed, ↓reduceIte]
      refine tree_eq_self hat hw' hclosed hnodup (Nat.zero_le _) (by simp) fun o ho hle => ?_
      -- the walk has never been in a closed part that stands below it
      have hout : place ++ [i] <+: top := (hwithin o ho).least _ hle ⟨w, hat, hclosed⟩
      have hlong := hout.length_le.trans hplace.below.length_le
      simp at hlong
    · have hopen : w.isClosed = false := by simpa using hclosed
      obtain ⟨x, hx, hxup⟩ := at?_placeOfChild h hu hat
      have hnext : v.Within top (v.node (v.placeOfChild place i)).1 := by
        rw [node_val hx]
        exact hplace.placeOfChild htop hat hopen
      have step : ∀ target, v.placeOfChild place i = target →
          v.graph.tree (v.node place :: around) (v.node (v.placeOfChild place i)) =
            v.reached fuel (place :: around.map (·.1)) target := by
        rintro target rfl
        have hplaces : place :: around.map (·.1) = (v.node place :: around).map (·.1) := by
          rw [List.map_cons, node_val h]
        have hfind := idxOf?_map Subtype.val_injective (v.node place :: around)
          (v.node (v.placeOfChild place i))
        rw [node_val hx] at hfind
        rw [reached, hplaces, hfind]
        by_cases hmem : v.node (v.placeOfChild place i) ∈ v.node place :: around
        · rw [if_pos hmem, Graph.tree_of_mem hmem]
        · rw [if_neg hmem]
          have hin : ∀ o ∈ v.node (v.placeOfChild place i) :: v.node place :: around,
            v.Within top o.1 :=
            List.forall_mem_cons.2 ⟨hnext, hwithin⟩
          refine (ih hx hxup (List.nodup_cons.2 ⟨hmem, hnodup⟩) hin ?_).symm
          rw [List.length_cons]
          omega
      simp only [hopen, Bool.false_eq_true, ↓reduceIte]
      exact step _ (placeOfChild_match hat)

/-- A part of a value, as a value of its own, is the tree of its place. -/
theorem takenOut_eq_tree (hv : v.isClosed = true) (h : v.at? place = some u) (hu : ∀ n, u ≠ .up n) :
    v.takenOut place u = v.graph.tree [] (v.node place) := by
  by_cases hclosed : u.isClosed = true
  · rw [takenOut_of_isClosed v place hclosed]
    exact (tree_eq_self h hu hclosed .nil (Nat.zero_le _) (by simp) (by simp)).symm
  · obtain ⟨top, htop, hwithin⟩ := exists_within hv place
    have htree := unfold_eq_tree htop v.nodes h hu (List.nodup_singleton _)
      (by simpa [node_val h] using hwithin) (Nat.le_add_right _ _)
    rw [← htree]
    unfold takenOut
    rw [if_neg hclosed]
    cases u <;> first | rfl | exact absurd rfl (hu _)

/-! ## Texts -/

/-- The nodes of a path are those around a place, and all are sequences. -/
structure Surrounds (v : Value) (path : List v.Node) (place : Place) : Prop where
  mem_iff : ∀ n : v.Node, n ∈ path ↔ n.1 <+: place ∧ n.1 ≠ place
  sequence : ∀ n ∈ path, ∃ form items, v.graph.shape n = .sequence form items

theorem Surrounds.child {path : List v.Node} {form : Form} {vs : List Value}
    (h : v.Surrounds path place) (hat : v.at? place = some (form.of vs)) (i : Nat) :
    v.Surrounds (v.node place :: path) (place ++ [i]) := by
  have hshape := (graph_shape hat).trans (shape_of _ form vs)
  refine ⟨fun n => ?_, List.forall_mem_cons.2 ⟨⟨form, _, hshape⟩, h.sequence⟩⟩
  rw [List.mem_cons, h.mem_iff, List.prefix_concat_iff]
  constructor
  · intro hn
    have hle : n.1 <+: place := by
      rcases hn with rfl | ⟨hle, -⟩
      · rw [node_val hat]
      · exact hle
    refine ⟨.inr hle, fun heq => ?_⟩
    have hlen := hle.length_le
    rw [heq, List.length_append, List.length_singleton] at hlen
    omega
  · rintro ⟨heq | hle, hne⟩
    · exact absurd heq hne
    · by_cases heq : n.1 = place
      · exact .inl (by rw [← heq, node_eq])
      · exact .inr ⟨hle, heq⟩

/-- A reference leads to one of the sequences around it. -/
theorem Surrounds.mem_of_up {path : List v.Node} {form : Form} {vs : List Value} {i k : Nat}
    (h : v.Surrounds path place) (hat : v.at? place = some (form.of vs))
    (hup : v.at? (place ++ [i]) = some (.up k)) :
    v.node (v.placeOfChild place i) ∈ v.node place :: path := by
  have hform : ∀ n, form.of vs ≠ .up n := fun n heq => by cases form <;> cases heq
  obtain ⟨x, hx, -⟩ := at?_placeOfChild hat hform hup
  have hle : v.placeOfChild place i <+: place := by
    rw [placeOfChild_up hup]
    exact List.take_prefix _ _
  rw [(h.child hat i).mem_iff, node_val hx]
  refine ⟨hle.trans (List.prefix_append _ _), fun heq => ?_⟩
  have hlen := hle.length_le
  rw [heq, List.length_append, List.length_singleton] at hlen
  omega

/-- What stands at a place is written like its node, inside of the sequences that it stands in. -/
theorem formatAt_graph (hv : v.isClosed = true) {u : Value} {place : Place} {path : List v.Node}
    (h : v.at? place = some u) (hu : ∀ n, u ≠ .up n) (hpath : v.Surrounds path place) :
    formatAt v place u = (v.graph.sketch path (v.node place)).written := by
  have hshape := graph_shape h
  induction u using forms_induction generalizing place path with
  | sequence form vs ih =>
    rw [shape_of] at hshape
    have hn : v.node place ∉ path := fun hmem => ((hpath.mem_iff _).1 hmem).2 (node_val h)
    have hitem : ∀ i w, vs[i]? = some w → formatAt v (place ++ [i]) w =
        (v.graph.sketch (v.node place :: path) (v.node (v.placeOfChild place i))).written := by
      intro i w hi
      have hat := at?_child h (child?_of.trans hi)
      have hbelow := hpath.child h i
      by_cases hup : ∃ k, w = .up k
      · obtain ⟨k, rfl⟩ := hup
        have hmem := hpath.mem_of_up h hat
        obtain ⟨form, items, hs⟩ := hbelow.sequence _ hmem
        rw [Graph.sketch_of_mem hs hmem]
        rfl
      · have hw : ∀ k, w ≠ .up k := by simpa using hup
        rw [placeOfChild_eq hat hw]
        exact ih w (List.mem_of_getElem? hi) hat hw hbelow (graph_shape hat)
    have hlen : vs.length = ((vs.mapIdx fun i _ => v.node (v.placeOfChild place i)).map
        (v.graph.sketch (v.node place :: path))).length := by simp
    rw [formatAt_of, Graph.sketch_of_not_mem hshape hn, Sketch.written,
      formatAll_eq hlen fun i w part hw hpart => ?_]
    rw [List.getElem?_map, List.getElem?_mapIdx, hw] at hpart
    rw [Nat.zero_add, hitem i w hw, ← Option.some.inj hpart]
  | map entries =>
    rw [Graph.sketch_map hshape, Sketch.written, formatAt, takenOut_eq_tree hv h hu]
  | atom u ha =>
    have hclosed := isClosed_of_isAtom ha hu
    rw [shape_atom _ ha] at hshape
    rw [Graph.sketch_atom hshape, Sketch.written, ← formatAt_atom, atom_value ha hclosed]

/-- A value is written like its graph. -/
theorem formatted_graph (hv : v.isClosed = true) : v.formatted = v.graph.formatted v.root :=
  formatAt_graph hv rfl (ne_up_of_isClosed hv) ⟨by simp, by simp⟩

theorem isShort_of_shape_atom {ι : Type} {child : Nat → ι} {a : Atom} (h : shape child u = .atom a)
    (hu : u.isShort = true) : a.value.isShort = true := by
  have hself : u.atom.value.isShort = true := by
    rw [atom]
    split
    · exact hu
    · rfl
  cases u with
  | list _ | tuple _ | set _ | map _ => cases h
  | _ =>
    cases h
    exact hself

theorem isShort_of_shape_map {ι : Type} {child : Nat → ι} {entries : List (Value × ι)}
    (h : shape child u = .map entries) (hu : u.isShort = true) :
    ∀ e ∈ entries, e.1.isShort = true := by
  cases u with
  | map given =>
    cases h
    intro e he
    obtain ⟨i, hi, rfl⟩ := List.mem_mapIdx.1 he
    exact (isShort_map.1 hu _ (List.getElem_mem hi)).1
  | _ => cases h

/-- Where every integer can be written, so can those of the graph. -/
theorem graph_isShort (hw : v.isShort = true) : v.graph.IsShort := by
  have hat : ∀ n : v.Node, ((v.at? n.1).getD .missing).isShort = true := fun n => by
    cases h : v.at? n.1 with
    | none => rfl
    | some u => exact at?_everywhere hw h
  exact ⟨fun n _ h => isShort_of_shape_atom h (hat n), fun n _ h => isShort_of_shape_map h (hat n)⟩

end Value

namespace Graph

/-- Messages show every finite graph of values: the walk through it ends, whatever becomes of the
graph, and is then inside of no sequence. It ends with a text unless there is a pattern that is
written in bytes. An ellipsis stands just where a sequence is met inside itself through sequences
only; elsewhere a sequence is written in full, and as it is by itself if it does not lead back.
Where there is no cycle the text is that of the recursion on the value alone. A map is a compact
record if all keys below it can be names and it has no cycle, and is shown explicitly otherwise. The
graph is what a value stands for: it is written like its tree unless a cycle goes through a sequence
and a map, and every closed value is the tree of its own graph and is written like it. -/
theorem format_exact {ι : Type} [Fintype ι] [DecidableEq ι] (g : Graph ι) (hw : g.IsShort)
    (hs : g.SetsHoldKeys) (n : ι) :
    (∀ fuel, Fintype.card ι < fuel → g.visit fuel n ∅ = some (g.formatted n, ∅)) ∧
    (¬ g.HasBytesFrom n → ∃ s, g.formatted n = .ok (.text s)) ∧
    (∀ place, (g.sketch [] n).part? place = some .again ↔ ∃ passed m form items,
      g.Leads n place passed m ∧ passed.Nodup ∧ g.shape m = .sequence form items ∧ m ∈ passed) ∧
    (∀ place passed m form items, g.Leads n place passed m → passed.Nodup →
      g.shape m = .sequence form items → m ∉ passed →
        (g.sketch [] n).part? place = some (.group (items.map (g.sketch (m :: passed.reverse)))) ∧
        ((∀ k place below, g.Leads m place below k → k ∉ passed) →
          (g.sketch [] n).part? place = some (g.sketch [] m))) ∧
    (g.IsAcyclicFrom n → g.formatted n = (g.tree [] n).formatPlainly) ∧
    (∀ place passed m entries, g.Leads n place passed m → passed.Nodup → g.shape m = .map entries →
      (g.sketch [] n).part? place = some (.text (g.formatted m)) ∧
        (g.IsAcyclicFrom m ∧ g.HasNamesFrom m →
          ∃ s, (g.tree [] m).compact? = some s ∧ g.formatted m = .ok (.text s)) ∧
        (¬ (g.IsAcyclicFrom m ∧ g.HasNamesFrom m) →
          (g.tree [] m).compact? = none ∧ g.formatted m = (g.tree [] m).shown.map .text)) ∧
    (g.IsUnmixedFrom n → (g.tree [] n).formatted = g.formatted n) ∧
    ∀ v : Value, v.isClosed = true →
      v.graph.tree [] v.root = v ∧ v.formatted = v.graph.formatted v.root ∧
        (v.isShort = true → v.graph.IsShort) ∧
        (v.holdsReference = false → v.formatted = v.formatPlainly) := by
  refine ⟨?ends, written_sketch_ok hw [] n, fun _ => part?_eq_again_iff, ?full,
    formatted_eq_formatPlainly, ?maps, formatted_tree, ?values⟩
  case ends =>
    intro fuel hfuel
    have hroom : room ([] : List ι).toFinset < fuel := by simpa [room] using hfuel
    simpa [formatted] using visit_eq (g := g) (n := n) hroom
  case full =>
    intro place passed m form items hleads hnodup hshape hm
    have hpart := part?_of_leads hleads hnodup
    have hout : m ∉ passed.reverse := fun hmem => hm (List.mem_reverse.1 hmem)
    refine ⟨by rw [hpart, sketch_of_not_mem hshape hout], fun hoff => ?_⟩
    rw [hpart]
    exact congrArg some (sketch_append [] m fun k place below hk hmem =>
      hoff k place below hk (List.mem_reverse.1 hmem))
  case maps =>
    intro place passed m entries hleads hnodup hshape
    refine ⟨?_, formatted_map hw hs hshape⟩
    rw [part?_of_leads hleads hnodup, formatted, sketch_map hshape,
      sketch_map hshape, Sketch.written]
  case values =>
    exact fun v hv => ⟨Value.tree_root hv, Value.formatted_graph hv, Value.graph_isShort,
      fun h => Value.formatAt_eq_formatPlainly h []⟩

/-- A list that holds itself, twice in another one. It is written in full at both places, with an
ellipsis where it stands inside itself. -/
theorem format_exact_shared :
    let g : Graph (Fin 3) := ⟨fun n => match n with
      | 0 => .sequence .list [1, 1]
      | 1 => .sequence .list [2, 1]
      | 2 => .atom ⟨.null, rfl, rfl⟩⟩
    g.IsShort ∧ g.SetsHoldKeys ∧
      (∀ fuel, 3 < fuel → g.visit fuel 0 ∅ =
        some (.ok (.text "((null, (...)), (null, (...)))"), ∅)) ∧
      (g.sketch [] 0).part? [0, 1] = some .again ∧
        (g.sketch [] 0).part? [1] = some (g.sketch [] 1) := by
  intro g
  have hw : g.IsShort := by
    refine ⟨fun n a h => ?_, fun n entries h => ?_⟩
    · match n, h with
      | 2, h =>
        cases h
        rfl
    · match n, h with
      | 0, h | 1, h | 2, h => cases h
  have hs : g.SetsHoldKeys := fun n items h => by
    match n, h with
    | 0, h | 1, h | 2, h => cases h
  have hoff : ∀ m place passed k, g.Leads m place passed k → m ≠ 0 → k ≠ 0 := by
    intro m place passed k h
    induction h with
    | here => exact id
    | @item n m _ _ _ _ _ _ h hi _ ih =>
      intro hn
      have hmem := List.mem_of_getElem? hi
      match n, h with
      | 0, _ => exact absurd rfl hn
      | 1, h =>
        cases h
        exact ih (by rintro rfl; simp at hmem)
      | 2, h => cases h
  obtain ⟨hvisit, -, hagain, hfull, -⟩ := format_exact g hw hs 0
  have htext : g.formatted 0 = .ok (.text "((null, (...)), (null, (...)))") := by cbv
  refine ⟨hw, hs, htext ▸ hvisit, ?_, ?_⟩
  · exact (hagain [0, 1]).2 ⟨[0, 1], 1, .list, [2, 1], .item rfl rfl (.item rfl rfl (.here 1)),
      by decide, rfl, by decide⟩
  · refine (hfull [1] [0] 1 .list [2, 1] (.item rfl rfl (.here 1)) (by decide) rfl (by decide)).2 ?_
    exact fun k place below hk hmem => hoff 1 place below k hk (by decide)
      (List.mem_singleton.1 hmem)

end Graph

end Attest
