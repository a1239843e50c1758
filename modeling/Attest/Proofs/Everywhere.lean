import Attest.Value.Order

/-!
# What holds everywhere in a value

A property of a value that is one of its atoms, of the keys of its maps and of the sizes of its
containers. Taking a part out of a value unfolds references, which makes new containers of old ones:
nothing new is met in them.

* `takenOut_everywhere`: what holds everywhere in a value holds everywhere in its parts.
* `takenOut_isClosed`: a part that is taken out has no reference to the outside.
-/

namespace Attest.Value

mutual

/-- Whether all atoms of a value pass one test, and all containers, by their keys and their size,
another one. -/
def everywhere (atom : Value → Bool) (container : List Value → Nat → Bool) : Value → Bool
  | .list items | .tuple items | .set items =>
    container [] items.length && everywhereAll atom container items
  | .map entries =>
    container (entries.map (·.1)) entries.length && everywhereEntries atom container entries
  | v => atom v

def everywhereAll (atom : Value → Bool) (container : List Value → Nat → Bool) :
    List Value → Bool
  | [] => true
  | v :: rest => everywhere atom container v && everywhereAll atom container rest

def everywhereEntries (atom : Value → Bool) (container : List Value → Nat → Bool) :
    List (Value × Value) → Bool
  | [] => true
  | (k, v) :: rest =>
    everywhere atom container k && everywhere atom container v &&
      everywhereEntries atom container rest

end

section
variable {atom : Value → Bool} {container : List Value → Nat → Bool}

theorem everywhereAll_iff : ∀ {items : List Value},
    everywhereAll atom container items = true ↔
      ∀ v ∈ items, v.everywhere atom container = true
  | [] => by simp [everywhereAll]
  | v :: rest => by simp [everywhereAll, @everywhereAll_iff rest]

theorem everywhereEntries_iff : ∀ {entries : List (Value × Value)},
    everywhereEntries atom container entries = true ↔
      ∀ e ∈ entries, e.1.everywhere atom container = true ∧ e.2.everywhere atom container = true
  | [] => by simp [everywhereEntries]
  | (k, v) :: rest => by simp [everywhereEntries, @everywhereEntries_iff rest]

end

section
variable {atom atom' : Value → Bool} {container : List Value → Nat → Bool}

mutual

/-- What holds everywhere may be weakened. -/
theorem everywhere_imp (hatom : ∀ a, atom a = true → atom' a = true) :
    ∀ {v : Value}, v.everywhere atom container = true →
    v.everywhere atom' container = true
  | .list items, h | .tuple items, h | .set items, h => by
    simp only [everywhere, Bool.and_eq_true] at h ⊢
    exact ⟨h.1, everywhereAll_imp hatom h.2⟩
  | .map entries, h => by
    simp only [everywhere, Bool.and_eq_true] at h ⊢
    exact ⟨h.1, everywhereEntries_imp hatom h.2⟩
  | .missing, h | .null, h | .bool _, h | .int _, h | .float _, h | .nan _, h | .text _, h
  | .bytes _, h | .moment _, h | .date _, h | .time _, h | .pattern _, h | .mode _, h | .type _, h
  | .object _, h | .function _, h | .validator _ _ _, h | .up _, h => by
    simp only [everywhere] at h ⊢
    exact hatom _ h

theorem everywhereAll_imp (hatom : ∀ a, atom a = true → atom' a = true) :
    ∀ {items : List Value}, everywhereAll atom container items = true →
    everywhereAll atom' container items = true
  | [], _ => rfl
  | v :: rest, h => by
    simp only [everywhereAll, Bool.and_eq_true] at h ⊢
    exact ⟨everywhere_imp hatom h.1, everywhereAll_imp hatom h.2⟩

theorem everywhereEntries_imp (hatom : ∀ a, atom a = true → atom' a = true) :
    ∀ {entries : List (Value × Value)}, everywhereEntries atom container entries = true →
    everywhereEntries atom' container entries = true
  | [], _ => rfl
  | (k, v) :: rest, h => by
    simp only [everywhereEntries, Bool.and_eq_true] at h ⊢
    exact ⟨⟨everywhere_imp hatom h.1.1, everywhere_imp hatom h.1.2⟩,
      everywhereEntries_imp hatom h.2⟩

end

end

section
variable {atom : Value → Bool} {container : List Value → Nat → Bool}

/-- The children of a value, by which it is walked through. -/
theorem child?_everywhere {v u : Value} {i : Nat} (hv : v.everywhere atom container = true)
    (h : v.child? i = some u) : u.everywhere atom container = true := by
  unfold child? at h
  split at h
  case h_4 entries =>
    obtain ⟨e, he, rfl⟩ := Option.map_eq_some_iff.1 h
    simp only [everywhere, Bool.and_eq_true] at hv
    exact (everywhereEntries_iff.1 hv.2 e (List.mem_of_getElem? he)).2
  case h_5 => cases h
  all_goals
    simp only [everywhere, Bool.and_eq_true] at hv
    exact everywhereAll_iff.1 hv.2 u (List.mem_of_getElem? h)

theorem at?_everywhere : ∀ {place : Place} {v u : Value}, v.everywhere atom container = true →
    v.at? place = some u → u.everywhere atom container = true
  | [], v, u, hv, h => by
    cases h
    exact hv
  | i :: place, v, u, hv, h => by
    obtain ⟨w, hw, h⟩ := Option.bind_eq_some_iff.1 h
    exact at?_everywhere (child?_everywhere hv hw) h

theorem everywhere_mapChildren {v : Value} {f : Nat → Value → Value}
    (hv : v.everywhere atom container = true)
    (h : ∀ i u, u.everywhere atom container = true → (f i u).everywhere atom container = true) :
    (v.mapChildren f).everywhere atom container = true := by
  have hitems : ∀ items : List Value, everywhereAll atom container items = true →
      everywhereAll atom container (items.mapIdx f) = true := by
    intro items hi
    rw [everywhereAll_iff] at hi ⊢
    intro u hu
    obtain ⟨i, hlt, rfl⟩ := List.mem_mapIdx.1 hu
    exact h i _ (hi _ (List.getElem_mem hlt))
  cases v with
  | list items | tuple items | set items =>
    simp only [everywhere, Bool.and_eq_true] at hv
    simp only [mapChildren, everywhere, Bool.and_eq_true, List.length_mapIdx]
    exact ⟨hv.1, hitems items hv.2⟩
  | map entries =>
    simp only [everywhere, Bool.and_eq_true] at hv
    simp only [mapChildren, everywhere, Bool.and_eq_true, List.length_mapIdx]
    refine ⟨?_, ?_⟩
    · have : (entries.mapIdx fun i e => (e.1, f i e.2)).map (·.1) = entries.map (·.1) := by
        apply List.ext_getElem <;> simp
      exact this ▸ hv.1
    · rw [everywhereEntries_iff] at hv ⊢
      intro e he
      obtain ⟨i, hlt, rfl⟩ := List.mem_mapIdx.1 he
      have := hv.2 _ (List.getElem_mem hlt)
      exact ⟨this.1, h i _ this.2⟩
  | _ => exact hv

/-- Unfolding from a place only repeats what is there. -/
theorem unfold_everywhere {whole : Value} (hw : whole.everywhere atom container = true)
    (hmissing : atom .missing = true) (hup : ∀ n, atom (.up n) = true) :
    ∀ (fuel : Nat) (around : List Place) (place : Place),
      (unfold whole fuel around place).everywhere atom container = true
  | 0, _, _ => hmissing
  | fuel + 1, around, place => by
    unfold unfold
    have hat : ((whole.at? place).getD .missing).everywhere atom container = true := by
      cases h : whole.at? place with
      | none => exact hmissing
      | some u => exact at?_everywhere hw h
    refine everywhere_mapChildren hat fun i u hu => ?_
    simp only
    split
    · exact hu
    · split
      · exact hup _
      · exact unfold_everywhere hw hmissing hup fuel _ _

theorem takenOut_everywhere {whole v : Value} (place : Place)
    (hw : whole.everywhere atom container = true) (hv : v.everywhere atom container = true)
    (hmissing : atom .missing = true) (hup : ∀ n, atom (.up n) = true) :
    (whole.takenOut place v).everywhere atom container = true := by
  unfold takenOut
  split
  · exact hv
  · exact unfold_everywhere hw hmissing hup _ _ _

/-! ## Parts as values of their own -/

theorem items_everywhere {v : Value} (hv : v.everywhere atom container = true)
    (hmissing : atom .missing = true) (hup : ∀ n, atom (.up n) = true) :
    ∀ item ∈ v.items, item.everywhere atom container = true := by
  intro item hitem
  unfold items at hitem
  split at hitem
  case h_4 => cases hitem
  all_goals
    obtain ⟨i, hlt, rfl⟩ := List.mem_mapIdx.1 hitem
    refine takenOut_everywhere _ hv ?_ hmissing hup
    simp only [everywhere, Bool.and_eq_true] at hv
    exact everywhereAll_iff.1 hv.2 _ (List.getElem_mem hlt)

theorem entries?_everywhere {v : Value} {entries : List (Value × Value)}
    (hv : v.everywhere atom container = true) (hmissing : atom .missing = true)
    (hup : ∀ n, atom (.up n) = true) (h : v.entries? = some entries) :
    ∀ e ∈ entries, e.1.everywhere atom container = true ∧ e.2.everywhere atom container = true := by
  intro e he
  match v, h with
  | .map given, h =>
    simp only [entries?, Option.some.injEq] at h
    subst h
    obtain ⟨i, hlt, rfl⟩ := List.mem_mapIdx.1 he
    have hmap := hv
    simp only [everywhere, Bool.and_eq_true] at hmap
    have := everywhereEntries_iff.1 hmap.2 _ (List.getElem_mem hlt)
    exact ⟨this.1, takenOut_everywhere _ hv this.2 hmissing hup⟩

/-- What a walk through a value meets: its items, its keys, or texts and small numbers. -/
theorem iterate_everywhere {v : Value} {found : List Value}
    (hv : v.everywhere atom container = true) (hmissing : atom .missing = true)
    (hup : ∀ n, atom (.up n) = true) (htext : ∀ s, atom (.text s) = true)
    (hbyte : ∀ b : UInt8, atom (.int b.toNat) = true) (h : v.iterate = .ok found) :
    ∀ item ∈ found, item.everywhere atom container = true := by
  intro item hitem
  unfold iterate at h
  split at h
  · cases h
    obtain ⟨c, -, rfl⟩ := List.mem_map.1 hitem
    exact htext _
  · split at h
    case h_1 | h_2 | h_3 =>
      cases h
      exact items_everywhere hv hmissing hup item hitem
    case h_4 entries =>
      cases h
      obtain ⟨e, he, rfl⟩ := List.mem_map.1 hitem
      simp only [everywhere, Bool.and_eq_true] at hv
      exact (everywhereEntries_iff.1 hv.2 e he).1
    case h_5 =>
      cases h
      obtain ⟨b, -, rfl⟩ := List.mem_map.1 hitem
      exact hbyte b
    case h_6 => cases h

theorem entries?_container {v : Value} {entries : List (Value × Value)}
    (hv : v.everywhere atom container = true) (h : v.entries? = some entries) :
    container (entries.map (·.1)) entries.length = true := by
  match v, h with
  | .map given, h =>
    simp only [entries?, Option.some.injEq] at h
    subst h
    simp only [everywhere, Bool.and_eq_true] at hv
    have : ((given.mapIdx fun i e => (e.1, (Value.map given).takenOut [i] e.2)).map (·.1)) =
        given.map (·.1) := by
      apply List.ext_getElem <;> simp
    simpa [this] using hv.1

theorem sequence?_container {v : Value} {found : List Value}
    (hv : v.everywhere atom container = true) (h : v.sequence? = some found) :
    container [] found.length = true := by
  match v, h with
  | .list given, h | .tuple given, h =>
    simp only [sequence?, Option.some.injEq] at h
    subst h
    simp only [everywhere, Bool.and_eq_true] at hv
    simpa [items] using hv.1

end

/-! ## Closed parts -/

mutual

theorem isClosedIn_mono {d e : Nat} (h : d ≤ e) : ∀ {v : Value}, v.isClosedIn d = true →
    v.isClosedIn e = true
  | .list items, hv | .tuple items, hv | .set items, hv => by
    simp only [isClosedIn] at hv ⊢
    exact areClosedIn_mono (Nat.succ_le_succ h) hv
  | .map entries, hv => by
    simp only [isClosedIn] at hv ⊢
    exact entriesAreClosedIn_mono (Nat.succ_le_succ h) hv
  | .up n, hv => by
    simp only [isClosedIn, decide_eq_true_eq] at hv ⊢
    exact Nat.lt_of_lt_of_le hv h
  | .missing, _ | .null, _ | .bool _, _ | .int _, _ | .float _, _ | .nan _, _ | .text _, _
  | .bytes _, _ | .moment _, _ | .date _, _ | .time _, _ | .pattern _, _ | .mode _, _
  | .type _, _ | .object _, _ | .function _, _ | .validator _ _ _, _ => rfl

theorem areClosedIn_mono {d e : Nat} (h : d ≤ e) : ∀ {items : List Value},
    areClosedIn d items = true → areClosedIn e items = true
  | [], _ => rfl
  | v :: rest, hv => by
    simp only [areClosedIn, Bool.and_eq_true] at hv ⊢
    exact ⟨isClosedIn_mono h hv.1, areClosedIn_mono h hv.2⟩

theorem entriesAreClosedIn_mono {d e : Nat} (h : d ≤ e) : ∀ {entries : List (Value × Value)},
    entriesAreClosedIn d entries = true → entriesAreClosedIn e entries = true
  | [], _ => rfl
  | (k, v) :: rest, hv => by
    simp only [entriesAreClosedIn, Bool.and_eq_true] at hv ⊢
    exact ⟨isClosedIn_mono h hv.1, entriesAreClosedIn_mono h hv.2⟩

end

theorem areClosedIn_iff {d : Nat} : ∀ {items : List Value},
    areClosedIn d items = true ↔ ∀ v ∈ items, v.isClosedIn d = true
  | [] => by simp [areClosedIn]
  | v :: rest => by simp [areClosedIn, @areClosedIn_iff d rest]

theorem entriesAreClosedIn_iff {d : Nat} : ∀ {entries : List (Value × Value)},
    entriesAreClosedIn d entries = true ↔ ∀ e ∈ entries, e.2.isClosedIn d = true
  | [] => by simp [entriesAreClosedIn]
  | (k, v) :: rest => by simp [entriesAreClosedIn, @entriesAreClosedIn_iff d rest]

/-- What has a child is no reference. -/
theorem ne_up_of_child? {v u : Value} {i : Nat} (h : v.child? i = some u) (n : Nat) :
    v ≠ .up n := by
  rintro rfl
  cases h

theorem at?_append_place (v : Value) (p q : Place) : v.at? (p ++ q) = (v.at? p).bind (·.at? q) := by
  induction p generalizing v with
  | nil => rfl
  | cons i p ih =>
    simp only [List.cons_append, at?]
    cases v.child? i with
    | none => rfl
    | some u => exact ih u

theorem at?_append (v : Value) (p : Place) (i : Nat) :
    v.at? (p ++ [i]) = (v.at? p).bind (·.child? i) := by
  have hone : ∀ u : Value, u.at? [i] = u.child? i := fun u => by
    cases h : u.child? i <;> simp [at?, h]
  rw [at?_append_place]
  simp only [hone]

/-- Above every place there is a container. -/
theorem at?_take : ∀ {place : Place} {v u : Value} {k : Nat}, v.at? place = some u →
    k < place.length → ∃ w, v.at? (place.take k) = some w ∧ ∀ n, w ≠ .up n
  | i :: place, v, u, 0, h, _ => by
    obtain ⟨w, hw, -⟩ := Option.bind_eq_some_iff.1 h
    exact ⟨v, rfl, ne_up_of_child? hw⟩
  | i :: place, v, u, k + 1, h, hk => by
    obtain ⟨w, hw, h⟩ := Option.bind_eq_some_iff.1 h
    obtain ⟨x, hx, hup⟩ := at?_take h (Nat.lt_of_succ_lt_succ hk)
    exact ⟨x, Option.bind_eq_some_iff.2 ⟨w, hw, hx⟩, hup⟩

theorem at?_take_of_ne_up {place : Place} {v u : Value} (h : v.at? place = some u)
    (hu : ∀ n, u ≠ .up n) (k : Nat) : ∃ w, v.at? (place.take k) = some w ∧ ∀ n, w ≠ .up n := by
  by_cases hk : k < place.length
  · exact at?_take h hk
  · rw [List.take_of_length_le (Nat.le_of_not_lt hk)]
    exact ⟨u, h, hu⟩

theorem isClosedIn_mapChildren {v : Value} {f : Nat → Value → Value} {d : Nat}
    (hv : ∀ n, v ≠ .up n)
    (h : ∀ i u, v.child? i = some u → (f i u).isClosedIn (d + 1) = true) :
    (v.mapChildren f).isClosedIn d = true := by
  cases v with
  | list items | tuple items | set items =>
    simp only [mapChildren, isClosedIn, areClosedIn_iff]
    intro u hu
    obtain ⟨i, hlt, rfl⟩ := List.mem_mapIdx.1 hu
    exact h i _ (List.getElem?_eq_getElem hlt)
  | map entries =>
    simp only [mapChildren, isClosedIn, entriesAreClosedIn_iff]
    intro e he
    obtain ⟨i, hlt, rfl⟩ := List.mem_mapIdx.1 he
    exact h i _ (by simp [child?, List.getElem?_eq_getElem hlt])
  | up n => exact absurd rfl (hv n)
  | _ => rfl

/-- An unfolded value refers to nothing but itself and the places that the walk is inside of. -/
theorem unfold_isClosedIn {whole : Value} : ∀ (fuel : Nat) (around : List Place) (place : Place),
    (∃ u, whole.at? place = some u ∧ ∀ n, u ≠ .up n) →
      (unfold whole fuel around place).isClosedIn around.length = true
  | 0, _, _, _ => rfl
  | fuel + 1, around, place, h => by
    obtain ⟨u, hat, hup⟩ := h
    unfold unfold
    rw [hat]
    refine isClosedIn_mapChildren hup fun i child hchild => ?_
    have hat' : whole.at? (place ++ [i]) = some child := by
      rw [at?_append, hat]
      exact hchild
    simp only
    split
    · next hclosed => exact isClosedIn_mono (Nat.zero_le _) hclosed
    · split
      · next n hn =>
        obtain ⟨hlt, -⟩ := List.idxOf?_eq_some_iff.1 hn
        simpa [isClosedIn] using hlt
      · refine unfold_isClosedIn fuel (place :: around) _ ?_
        split
        · exact at?_take_of_ne_up hat hup _
        · next hne => exact ⟨child, hat', hne⟩

/-- A part that is taken out has no reference to the outside. -/
theorem takenOut_isClosed {whole v : Value} {place : Place} (h : whole.at? place = some v)
    (hplace : place ≠ []) : (whole.takenOut place v).isClosed = true := by
  unfold takenOut
  split
  · assumption
  · refine unfold_isClosedIn _ [] _ ?_
    split
    · refine at?_take h ?_
      have := List.length_pos_iff.2 hplace
      omega
    · next hne => exact ⟨v, h, hne⟩

theorem items_isClosed (v : Value) : ∀ item ∈ v.items, item.isClosed = true := by
  intro item hitem
  unfold items at hitem
  split at hitem
  case h_4 => cases hitem
  all_goals
    obtain ⟨i, hlt, rfl⟩ := List.mem_mapIdx.1 hitem
    exact takenOut_isClosed (by simp [at?, child?, List.getElem?_eq_getElem hlt]) (by simp)

theorem sequence?_isClosed {v : Value} {found : List Value} (h : v.sequence? = some found) :
    ∀ item ∈ found, item.isClosed = true := by
  unfold sequence? at h
  split at h
  case h_3 => cases h
  all_goals
    cases h
    exact items_isClosed _

/-- Items that are closed are taken out as they are. -/
theorem items_list_of_isClosed {vs : List Value} (h : ∀ v ∈ vs, v.isClosed = true) :
    (Value.list vs).items = vs := by
  apply List.ext_getElem
  · simp [items]
  · intro i h1 h2
    simp only [items, List.getElem_mapIdx]
    exact takenOut_of_isClosed _ _ (h _ (List.getElem_mem h2))

theorem iterate_list_of_isClosed {vs : List Value} (h : ∀ v ∈ vs, v.isClosed = true) :
    (Value.list vs).iterate = .ok vs := by
  have hitems : (Value.list vs).iterate = .ok (Value.list vs).items := rfl
  rw [hitems, items_list_of_isClosed h]

theorem entries?_isClosed {v : Value} {found : List (Value × Value)} (h : v.entries? = some found) :
    ∀ e ∈ found, e.2.isClosed = true := by
  intro e he
  match v, h with
  | .map entries, h =>
    simp only [entries?, Option.some.injEq] at h
    subst h
    obtain ⟨i, hlt, rfl⟩ := List.mem_mapIdx.1 he
    exact takenOut_isClosed (by simp [at?, child?, List.getElem?_eq_getElem hlt]) (by simp)

/-- Entries that are closed are taken out as they are. -/
theorem entries?_map_of_isClosed {entries : List (Value × Value)}
    (h : ∀ e ∈ entries, e.2.isClosed = true) :
    (Value.map entries).entries? = some entries := by
  simp only [entries?, Option.some.injEq]
  apply List.ext_getElem
  · simp
  · intro i h1 h2
    simp only [List.getElem_mapIdx]
    rw [takenOut_of_isClosed _ _ (h _ (List.getElem_mem h2))]

theorem list_isClosed {vs : List Value} (h : ∀ v ∈ vs, v.isClosed = true) :
    (Value.list vs).isClosed = true := by
  simp only [isClosed, isClosedIn, areClosedIn_iff]
  exact fun v hv => isClosedIn_mono (Nat.zero_le _) (h v hv)

theorem map_isClosed {entries : List (Value × Value)} (h : ∀ e ∈ entries, e.2.isClosed = true) :
    (Value.map entries).isClosed = true := by
  simp only [isClosed, isClosedIn, entriesAreClosedIn_iff]
  exact fun e he => isClosedIn_mono (Nat.zero_le _) (h e he)

/-! ## Nodes -/

theorem nodes_le_of_mem {v : Value} : ∀ {items : List Value}, v ∈ items → v.nodes ≤ nodesOfAll items
  | u :: rest, h => by
    rcases List.mem_cons.1 h with rfl | h
    · exact Nat.le_add_right _ _
    · exact Nat.le_trans (nodes_le_of_mem h) (Nat.le_add_left _ _)

theorem nodes_le_of_mem_entries {e : Value × Value} : ∀ {entries : List (Value × Value)},
    e ∈ entries → e.2.nodes ≤ nodesOfEntries entries
  | (k, u) :: rest, h => by
    rcases List.mem_cons.1 h with rfl | h
    · exact Nat.le_add_right _ _
    · exact Nat.le_trans (nodes_le_of_mem_entries h) (Nat.le_add_left _ _)

theorem nodes_child? {v u : Value} {i : Nat} (h : v.child? i = some u) : u.nodes < v.nodes := by
  unfold child? at h
  split at h
  case h_4 entries =>
    obtain ⟨e, he, rfl⟩ := Option.map_eq_some_iff.1 h
    exact Nat.lt_succ_of_le (nodes_le_of_mem_entries (List.mem_of_getElem? he))
  case h_5 => cases h
  all_goals exact Nat.lt_succ_of_le (nodes_le_of_mem (List.mem_of_getElem? h))

theorem nodes_at? : ∀ {place : Place} {v u : Value}, v.at? place = some u → u.nodes ≤ v.nodes
  | [], v, u, h => by
    cases h
    exact Nat.le_refl _
  | i :: place, v, u, h => by
    obtain ⟨w, hw, h⟩ := Option.bind_eq_some_iff.1 h
    exact Nat.le_of_lt (Nat.lt_of_le_of_lt (nodes_at? h) (nodes_child? hw))

theorem nodes_pos (v : Value) : 0 < v.nodes := by
  cases v <;> simp [nodes]

end Attest.Value
