import Attest.Proofs.Equivalence

/-!
# Comparison with values that may hold themselves

A value that is equal to itself in all its parts holds no reference, but what it is compared with
may hold itself. Then equality is a walk through both. It ends where the first value does, and walks
from equal values come to the same.

* `equalsWithin_ok`: the walk comes to an end.
* `equalsWithin_congr`: walks from equal values come to the same.
* `identical_ok`, `identical_congr`: so strict equality always has an answer, and strictly equal
  values are strictly equal to the same values.
* `identical_refl`, `identical_comm`, `identical_trans`: it is an equivalence.
-/

namespace Attest

namespace Value

variable {a b c : Value}

/-! ## Lists and maps that are walked through -/

theorem allRelated_congr {R S : Value → Value → Except Fault Bool} {xs ys : List Value}
    (h : List.Forall₂ (fun x y => ∀ z, R x z = S y z) xs ys) (zs : List Value) :
    allRelated R xs zs = allRelated S ys zs := by
  induction h generalizing zs with
  | nil => cases zs <;> rfl
  | cons hxy _ ih =>
    cases zs with
    | nil => rfl
    | cons z zs => rw [allRelated, allRelated, hxy, ih]

theorem allRelated_swap (R : Value → Value → Except Fault Bool) (xs ys : List Value) :
    allRelated R xs ys = allRelated (fun y x => R x y) ys xs := by
  induction xs generalizing ys with
  | nil => cases ys <;> rfl
  | cons x xs ih =>
    cases ys with
    | nil => rfl
    | cons y ys => rw [allRelated, allRelated, ih]

theorem allRelated_ok {R : Value → Value → Except Fault Bool} {xs : List Value}
    (h : ∀ x ∈ xs, ∀ z, ∃ r, R x z = .ok r) (zs : List Value) :
    ∃ r, allRelated R xs zs = .ok r := by
  induction xs generalizing zs with
  | nil => cases zs <;> exact ⟨_, rfl⟩
  | cons x xs ih =>
    cases zs with
    | nil => exact ⟨_, rfl⟩
    | cons z zs =>
      obtain ⟨r, hr⟩ := h x List.mem_cons_self z
      rw [allRelated, hr]
      cases r with
      | true => exact ih (fun x hx => h x (List.mem_cons_of_mem _ hx)) zs
      | false => exact ⟨_, rfl⟩

/-- Whether an entry has one with the same key among others, and a related value there. -/
def hasRelated (related : Value → Value → Except Fault Bool) (others : List (Value × Value))
    (e : Value × Value) : Prop :=
  ∃ w, lookup e.1 others = some w ∧ related w e.2 = .ok true

theorem entriesRelated_ok {R : Value → Value → Except Fault Bool}
    (others entries : List (Value × Value))
    (h : ∀ e ∈ entries, ∀ w, lookup e.1 others = some w → ∃ r, R w e.2 = .ok r) :
    ∃ r, entriesRelated R others entries = .ok r ∧
    (r = true ↔ ∀ e ∈ entries, hasRelated R others e) := by
  induction entries with
  | nil => exact ⟨true, rfl, by simp⟩
  | cons e entries ih =>
    obtain ⟨k, v⟩ := e
    obtain ⟨r, hr, hiff⟩ := ih fun e he => h e (List.mem_cons_of_mem _ he)
    rw [entriesRelated]
    cases hw : lookup k others with
    | none =>
      refine ⟨false, rfl, ?_⟩
      simp [hasRelated, hw]
    | some w =>
      obtain ⟨q, hq⟩ := h (k, v) List.mem_cons_self w hw
      simp only [] at hq
      cases q with
      | false => exact ⟨false, by simp [hq], by simp [hasRelated, hw, hq]⟩
      | true =>
        refine ⟨r, by simpa [hq] using hr, ?_⟩
        rw [hiff, List.forall_mem_cons]
        simp [hasRelated, hw, hq]

theorem items_of_comparable {xs : List Value} (h : areComparable xs = true) :
    (Value.list xs).items = xs ∧ (Value.tuple xs).items = xs := by
  rw [areComparable_iff] at h
  exact ⟨mapIdx_takenOut (.list xs) h, mapIdx_takenOut (.tuple xs) h⟩

/-! ## The walk -/

/-- A walk through a value that does not hold itself, and through any other one, comes to an end. -/
theorem equalsWithin_ok {n : Nat} (ha : a.isComparable = true) (hn : a.nodes ≤ n) (x : Value) :
    (∃ r, equalsWithin n a x = .ok r) ∧ ∃ r, equalsWithin n x a = .ok r := by
  induction n generalizing a x with
  | zero => exact absurd hn (Nat.not_le_of_lt a.nodes_pos)
  | succ n ih =>
    have hitems : ∀ {xs : List Value}, areComparable xs = true → nodesOfAll xs ≤ n → ∀ zs,
        (∃ r, allRelated (equalsWithin n) xs zs = .ok r) ∧
          ∃ r, allRelated (equalsWithin n) zs xs = .ok r := by
      intro xs hxs hle zs
      have hmem : ∀ y ∈ xs, ∀ z, (∃ r, equalsWithin n y z = .ok r) ∧
        ∃ r, equalsWithin n z y = .ok r :=
        fun y hy z => ih (areComparable_iff.1 hxs y hy) (Nat.le_trans (nodes_le_of_mem hy) hle) z
      rw [allRelated_swap _ zs]
      exact ⟨allRelated_ok (fun y hy z => (hmem y hy z).1) zs,
        allRelated_ok (fun y hy z => (hmem y hy z).2) zs⟩
    have hentries : ∀ {xs : List (Value × Value)}, (Value.map xs).isComparable = true →
      nodesOfEntries xs ≤ n →
        ∀ e ∈ xs, ∀ z, (∃ r, equalsWithin n e.2 z = .ok r) ∧ ∃ r, equalsWithin n z e.2 = .ok r :=
      fun hxs hle e he z =>
        ih ((isComparable_map hxs).1 e he).2 (Nat.le_trans (nodes_le_of_mem_entries he) hle) z
    constructor
    · unfold equalsWithin
      split
      · next xs ys =>
        rw [(items_of_comparable ha).1]
        split
        · exact (hitems ha (Nat.le_of_succ_le_succ hn) _).1
        · exact ⟨_, rfl⟩
      · next xs ys =>
        rw [(items_of_comparable ha).2]
        exact (hitems ha (Nat.le_of_succ_le_succ hn) _).1
      · next xs ys =>
        rw [entries?_of_comparable ha]
        split
        · obtain ⟨r, hr, -⟩ := entriesRelated_ok _ xs fun e he w _ =>
            (hentries ha (Nat.le_of_succ_le_succ hn) e he w).2
          exact ⟨r, hr⟩
        · exact ⟨_, rfl⟩
      · exact ⟨_, rfl⟩
    · unfold equalsWithin
      split
      · next xs ys =>
        rw [(items_of_comparable ha).1]
        split
        · exact (hitems ha (Nat.le_of_succ_le_succ hn) _).2
        · exact ⟨_, rfl⟩
      · next xs ys =>
        rw [(items_of_comparable ha).2]
        exact (hitems ha (Nat.le_of_succ_le_succ hn) _).2
      · next xs ys =>
        rw [entries?_of_comparable ha]
        split
        · obtain ⟨r, hr, -⟩ := entriesRelated_ok ys ((map xs).entries?.getD []) fun e _ w hw => by
            obtain ⟨f, hf, rfl⟩ := Option.map_eq_some_iff.1 hw
            exact (hentries ha (Nat.le_of_succ_le_succ hn) f (List.mem_of_find?_eq_some hf) e.2).1
          exact ⟨r, hr⟩
        · exact ⟨_, rfl⟩
      · exact ⟨_, rfl⟩

/-- Equal values are equal to the same values. -/
theorem same_congr {d : Value} (ha : a.isComparable = true) (hd : d.isComparable = true)
    (h : a.same d = true) (x : Value) : a.same x = d.same x ∧ x.same a = x.same d := by
  have h' := same_symm_of_comparable ha hd h
  exact ⟨Bool.eq_iff_iff.2 ⟨same_trans h', same_trans h⟩,
    Bool.eq_iff_iff.2 ⟨fun hx => same_trans hx h, fun hx => same_trans hx h'⟩⟩

/-- Whether a walk ends at a value. -/
def endsWalk : Value → Bool
  | .list _ | .tuple _ | .map _ => false
  | _ => true

theorem equalsWithin_of_endsWalk (ha : a.endsWalk = true) (n : Nat) (x : Value) :
    equalsWithin (n + 1) a x = .ok (a.same x) ∧ equalsWithin (n + 1) x a = .ok (x.same a) := by
  constructor
  all_goals
    unfold equalsWithin
    split
    case h_4 => rfl
    all_goals cases ha

theorem endsWalk_of_same (ha : a.endsWalk = true) (h : a.same b = true) : b.endsWalk = true := by
  unfold same at h
  split at h
  case h_3 => rfl
  case h_5 =>
    have hb := isAtom_of_sameAtom h
    cases b <;> first | rfl | cases hb
  all_goals cases ha

theorem forall₂_of_forall₂_same {P : Value → Value → Prop} {xs ys : List Value}
    (h : List.Forall₂ (fun x y => x.same y = true) xs ys)
    (hP : ∀ x ∈ xs, ∀ y ∈ ys, x.same y = true → P x y) : List.Forall₂ P xs ys := by
  induction h with
  | nil => exact .nil
  | cons hxy _ ih =>
    exact .cons (hP _ List.mem_cons_self _ List.mem_cons_self hxy)
      (ih fun x hx y hy => hP x (List.mem_cons_of_mem _ hx) y (List.mem_cons_of_mem _ hy))

/-- Lists of equal items are related to the same lists, from either side. -/
theorem allRelated_of_same {R S : Value → Value → Except Fault Bool} {xs ys : List Value}
    (h : List.Forall₂ (fun x y => x.same y = true) xs ys)
    (hRS : ∀ x ∈ xs, ∀ y ∈ ys, x.same y = true → ∀ z, R x z = S y z ∧ R z x = S z y)
    (zs : List Value) :
    allRelated R xs zs = allRelated S ys zs ∧ allRelated R zs xs = allRelated S zs ys := by
  rw [allRelated_swap _ zs, allRelated_swap _ zs]
  exact ⟨allRelated_congr (forall₂_of_forall₂_same h fun x hx y hy hxy z =>
      (hRS x hx y hy hxy z).1) zs,
    allRelated_congr (forall₂_of_forall₂_same h fun x hx y hy hxy z =>
      (hRS x hx y hy hxy z).2) zs⟩

/-- Under a key there is what stands under the one key that is equal to it. -/
theorem lookup_of_mem_same {xs : List (Value × Value)} {e : Value × Value} {k : Value}
    (hhash : ∀ e ∈ xs, e.1.unhashable? = none) (hne : xs.Pairwise fun e f => e.1.same f.1 = false)
    (he : e ∈ xs) (hek : e.1.same k = true) : lookup k xs = some e.2 := by
  induction xs with
  | nil => cases he
  | cons f xs ih =>
    rw [List.pairwise_cons] at hne
    rw [lookup_cons]
    split
    · next hfk =>
      rcases List.mem_cons.1 he with rfl | he'
      · rfl
      · have hfe := same_trans hfk (same_comm_of_hashable (hhash e he) ▸ hek)
        rw [hne.1 e he'] at hfe
        cases hfe
    · next hfk =>
      rcases List.mem_cons.1 he with rfl | he'
      · exact absurd hek hfk
      · exact ih (fun e he => hhash e (List.mem_cons_of_mem _ he)) hne.2 he'

/-- A key leads to equal values in equal maps. -/
theorem lookup_of_same {xs ys : List (Value × Value)} {k v : Value}
    (hy : (Value.map ys).isComparable = true) (h : (Value.map xs).same (.map ys) = true)
    (hv : lookup k xs = some v) :
    ∃ e ∈ xs, ∃ f ∈ ys, e.2 = v ∧ lookup k ys = some f.2 ∧ e.2.same f.2 = true := by
  obtain ⟨e, he, rfl⟩ := Option.map_eq_some_iff.1 hv
  have hkey : e.1.same k = true := by simpa using List.find?_some he
  obtain ⟨zs, hzs, -, hentries⟩ := same_map.1 h
  cases hzs
  obtain ⟨f, hf, hef, hvalue⟩ := hentries e (List.mem_of_find?_eq_some he)
  obtain ⟨-, hhash, hne⟩ := isComparable_map hy
  have hfk : f.1.same k = true := same_trans (same_comm_of_hashable (hhash f hf) ▸ hef) hkey
  exact ⟨e, List.mem_of_find?_eq_some he, f, hf, rfl, lookup_of_mem_same hhash hne hf hfk, hvalue⟩

theorem lookup_congr {k l : Value} (hk : k.unhashable? = none) (h : k.same l = true)
    (entries : List (Value × Value)) : lookup k entries = lookup l entries := by
  have hsame : (fun e : Value × Value => e.1.same k) = fun e => e.1.same l := by
    funext e
    exact Bool.eq_iff_iff.2 ⟨fun he => same_trans he h, fun he =>
      same_trans he (same_comm_of_hashable hk ▸ h)⟩
  rw [lookup_eq, lookup_eq, hsame]

/-- Relations that agree on the values of equal maps come to the same on the maps. -/
theorem entriesRelated_congr {R S : Value → Value → Except Fault Bool}
    {xs ys : List (Value × Value)} (hx : (Value.map xs).isComparable = true)
    (hy : (Value.map ys).isComparable = true) (h : (Value.map xs).same (.map ys) = true)
    (hR : ∀ e ∈ xs, ∀ z, (∃ r, R e.2 z = .ok r) ∧ ∃ r, R z e.2 = .ok r)
    (hS : ∀ f ∈ ys, ∀ z, (∃ r, S f.2 z = .ok r) ∧ ∃ r, S z f.2 = .ok r)
    (hRS : ∀ e ∈ xs, ∀ f ∈ ys, e.2.same f.2 = true → ∀ z, R e.2 z = S f.2 z ∧ R z e.2 = S z f.2)
    (zs : List (Value × Value)) :
    entriesRelated R zs xs = entriesRelated S zs ys ∧
    entriesRelated R xs zs = entriesRelated S ys zs := by
  have h' := same_symm_of_comparable hx hy h
  obtain ⟨hallx, hhashx, -⟩ := isComparable_map hx
  obtain ⟨hally, hhashy, -⟩ := isComparable_map hy
  have hvalues : ∀ e ∈ xs, ∀ f ∈ ys, f.2.same e.2 = true → e.2.same f.2 = true := fun e he f hf =>
    same_symm_of_comparable (hally f hf).2 (hallx e he).2
  constructor
  · obtain ⟨r, hr, hriff⟩ := entriesRelated_ok zs xs fun e he w _ => (hR e he w).2
    obtain ⟨q, hq, hqiff⟩ := entriesRelated_ok zs ys fun f hf w _ => (hS f hf w).2
    have hstep : ∀ e ∈ xs, ∀ f ∈ ys, e.1.same f.1 = true → e.2.same f.2 = true →
        (hasRelated R zs e ↔ hasRelated S zs f) := fun e he f hf hk hv => by
      simp only [hasRelated, lookup_congr (hhashx e he) hk, (hRS e he f hf hv _).2]
    rw [hr, hq, Except.ok.injEq, Bool.eq_iff_iff, hriff, hqiff]
    constructor
    · intro hall f hf
      obtain ⟨_, heq, -, hmet⟩ := same_map.1 h'
      cases heq
      obtain ⟨e, he, hk, hv⟩ := hmet f hf
      exact (hstep e he f hf (same_comm_of_hashable (hhashy f hf) ▸ hk) (hvalues e he f hf hv)).1
        (hall e he)
    · intro hall e he
      obtain ⟨_, heq, -, hmet⟩ := same_map.1 h
      cases heq
      obtain ⟨f, hf, hk, hv⟩ := hmet e he
      exact (hstep e he f hf hk hv).2 (hall f hf)
  · have found : ∀ {vs : List (Value × Value)} {k w : Value}, lookup k vs = some w →
      ∃ e ∈ vs, e.2 = w :=
      fun hw => by
        obtain ⟨e, he, rfl⟩ := Option.map_eq_some_iff.1 hw
        exact ⟨e, List.mem_of_find?_eq_some he, rfl⟩
    obtain ⟨r, hr, hriff⟩ := entriesRelated_ok xs zs fun g _ w hw => by
      obtain ⟨e, he, rfl⟩ := found hw
      exact (hR e he g.2).1
    obtain ⟨q, hq, hqiff⟩ := entriesRelated_ok ys zs fun g _ w hw => by
      obtain ⟨f, hf, rfl⟩ := found hw
      exact (hS f hf g.2).1
    rw [hr, hq, Except.ok.injEq, Bool.eq_iff_iff, hriff, hqiff]
    refine forall₂_congr fun g _ => ⟨?_, ?_⟩
    · rintro ⟨w, hw, hrel⟩
      obtain ⟨e, he, f, hf, rfl, hlookup, hv⟩ := lookup_of_same hy h hw
      exact ⟨f.2, hlookup, (hRS e he f hf hv g.2).1 ▸ hrel⟩
    · rintro ⟨w, hw, hrel⟩
      obtain ⟨f, hf, e, he, rfl, hlookup, hv⟩ := lookup_of_same hx h' hw
      exact ⟨e.2, hlookup, (hRS e he f hf (hvalues e he f hf hv) g.2).1 ▸ hrel⟩

/-- Walks from equal values and through any other one come to the same. -/
theorem equalsWithin_congr {n m : Nat} {d : Value} (ha : a.isComparable = true)
    (hd : d.isComparable = true) (h : a.same d = true) (hn : a.nodes ≤ n)
    (hm : d.nodes ≤ m) (x : Value) :
    equalsWithin n a x = equalsWithin m d x ∧ equalsWithin n x a = equalsWithin m x d := by
  induction n generalizing m a d x with
  | zero => exact absurd hn (Nat.not_le_of_lt a.nodes_pos)
  | succ n ih =>
    obtain ⟨m, rfl⟩ : ∃ k, m = k + 1 :=
      Nat.exists_eq_succ_of_ne_zero (Nat.ne_of_gt (Nat.lt_of_lt_of_le d.nodes_pos hm))
    have hsame := same_congr ha hd h x
    have hmem : ∀ {xs ys : List Value}, areComparable xs = true → areComparable ys = true →
        nodesOfAll xs ≤ n → nodesOfAll ys ≤ m → ∀ x ∈ xs, ∀ y ∈ ys, x.same y = true → ∀ z,
          equalsWithin n x z = equalsWithin m y z ∧ equalsWithin n z x = equalsWithin m z y :=
      fun hxs hys hlex hley x hx y hy hxy z =>
        ih (areComparable_iff.1 hxs x hx) (areComparable_iff.1 hys y hy) hxy
          (Nat.le_trans (nodes_le_of_mem hx) hlex) (Nat.le_trans (nodes_le_of_mem hy) hley) z
    -- the walks go on only where both values are lists, both are tuples, or both are maps
    have flat : equalsWithin (n + 1) a x = .ok (a.same x) →
      equalsWithin (n + 1) x a = .ok (x.same a) →
        equalsWithin (m + 1) d x = .ok (d.same x) → equalsWithin (m + 1) x d = .ok (x.same d) →
        equalsWithin (n + 1) a x = equalsWithin (m + 1) d x ∧
          equalsWithin (n + 1) x a = equalsWithin (m + 1) x d := fun h₁ h₂ h₃ h₄ => by
      rw [h₁, h₂, h₃, h₄, hsame.1, hsame.2]
      exact ⟨rfl, rfl⟩
    by_cases hends : a.endsWalk = true
    · have hx := equalsWithin_of_endsWalk hends n x
      have hy := equalsWithin_of_endsWalk (endsWalk_of_same hends h) m x
      exact flat hx.1 hx.2 hy.1 hy.2
    cases a with
    | list xs =>
      obtain ⟨ys, rfl, hxy⟩ := same_list.1 h
      cases x with
      | list zs =>
        have hlen : xs.length = ys.length := hxy.length_eq
        obtain ⟨hl, hr⟩ := allRelated_of_same hxy (hmem ha hd (Nat.le_of_succ_le_succ hn)
          (Nat.le_of_succ_le_succ hm)) (Value.list zs).items
        simp only [equalsWithin, (items_of_comparable ha).1, (items_of_comparable hd).1,
          hlen, hl, hr, and_self]
      | _ => exact flat rfl rfl rfl rfl
    | tuple xs =>
      obtain ⟨ys, rfl, hxy⟩ := same_tuple.1 h
      cases x with
      | tuple zs =>
        obtain ⟨hl, hr⟩ := allRelated_of_same hxy (hmem ha hd (Nat.le_of_succ_le_succ hn)
          (Nat.le_of_succ_le_succ hm)) (Value.tuple zs).items
        simp only [equalsWithin, (items_of_comparable ha).2,
          (items_of_comparable hd).2, hl, hr, and_self]
      | _ => exact flat rfl rfl rfl rfl
    | map xs =>
      obtain ⟨ys, rfl, hlen, -⟩ := same_map.1 h
      cases x with
      | map zs =>
        have hx := Nat.le_of_succ_le_succ hn
        have hy := Nat.le_of_succ_le_succ hm
        obtain ⟨hl, hr⟩ := entriesRelated_congr ha hd h
          (fun e he => equalsWithin_ok ((isComparable_map ha).1 e he).2
            (Nat.le_trans (nodes_le_of_mem_entries he) hx))
          (fun f hf => equalsWithin_ok ((isComparable_map hd).1 f hf).2
            (Nat.le_trans (nodes_le_of_mem_entries hf) hy))
          (fun e he f hf hv => ih ((isComparable_map ha).1 e he).2
            ((isComparable_map hd).1 f hf).2 hv
            (Nat.le_trans (nodes_le_of_mem_entries he) hx)
              (Nat.le_trans (nodes_le_of_mem_entries hf) hy))
          ((Value.map zs).entries?.getD [])
        simp only [equalsWithin, entries?_of_comparable ha, entries?_of_comparable
          hd, Option.getD_some, hlen, hl, hr, and_self]
      | _ => exact flat rfl rfl rfl rfl
    | _ => exact absurd rfl hends

/-! ## Strict equality -/

theorem nodes_le_pairDepth (a x : Value) : a.nodes ≤ pairDepth a x := by
  have hle := Nat.le_mul_of_pos_right a.nodes x.nodes_pos
  rw [pairDepth, Nat.mul_assoc]
  omega

/-- A value that does not hold itself is strictly equal to any other one, or it is not. -/
theorem identical_ok (ha : a.isComparable = true) (x : Value) : ∃ r, a.identical x = .ok r := by
  rw [identical, withinTypes_eq]
  split
  · split
    · exact ⟨_, rfl⟩
    · unfold equals
      split
      · exact (equalsWithin_ok ha (nodes_le_pairDepth a x) x).1
      · exact ⟨_, rfl⟩
  · exact ⟨_, rfl⟩

/-- Strictly equal values are strictly equal to the same values. -/
theorem identical_congr {d : Value} (ha : a.isComparable = true) (hd : d.isComparable = true)
    (h : a.identical d = .ok true) (x : Value) : a.identical x = d.identical x := by
  rw [identical_eq_of_comparable ha hd, Except.ok.injEq, Bool.and_eq_true, beq_iff_eq] at h
  obtain ⟨hsame, htype⟩ := h
  have hbool : a.isBool = d.isBool := by rw [Bool.eq_iff_iff, isBool_iff, isBool_iff, htype]
  have hnumber : a.isNumber = d.isNumber := by
    rw [Bool.eq_iff_iff, isNumber_iff, isNumber_iff, htype]
  have hequals : a.equals x = d.equals x := by
    rw [equals, equals, holdsReference_of_comparable ha, holdsReference_of_comparable hd,
      (same_congr ha hd hsame x).1,
      (equalsWithin_congr ha hd hsame (nodes_le_pairDepth a x) (nodes_le_pairDepth d x) x).1]
  rw [identical, identical, withinTypes_eq, withinTypes_eq, htype, hbool, hnumber, hequals,
    (same_congr ha hd hsame x).1]

theorem identical_refl (ha : a.isComparable = true) : a.identical a = .ok true := by
  rw [identical_eq_of_comparable ha ha, same_refl ha, beq_self_eq_true]
  rfl

theorem identical_comm (ha : a.isComparable = true) (hb : b.isComparable = true) :
    a.identical b = b.identical a := by
  rw [identical_eq_of_comparable ha hb, identical_eq_of_comparable hb ha,
    same_comm ha hb, Bool.beq_comm]

theorem identical_trans (ha : a.isComparable = true) (hb : b.isComparable = true)
    (h : a.identical b = .ok true) (h' : b.identical c = .ok true) : a.identical c = .ok true :=
  (identical_congr ha hb h c).trans h'

end Value

end Attest
