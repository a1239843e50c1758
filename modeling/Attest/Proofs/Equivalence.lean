import Attest.Proofs.Attempt
import Attest.Proofs.Everywhere
import Attest.Proofs.Keys
import Attest.Proofs.Names
import Attest.Value.Strict
import Mathlib.Algebra.Order.Field.Rat
import Mathlib.Data.Fintype.EquivFin
import Mathlib.Data.List.Forall2
import Mathlib.Tactic.FieldSimp

/-!
# Equality as an equivalence

Atoms are equal where they have one essence: one point of the number line, one text, one instant. So
equality of atoms is symmetric and transitive, and it is reflexive on all atoms but those that
differ from themselves. The same goes for containers, as long as no two keys of a map, and no two
items of a set, are the same.

* `sameAtom_iff`: atoms are equal by their essences.
* `isComparable`: whether a value, and everything in it, is equal to itself.
* `same_trans`, `same_refl`, `same_comm`: equality is an equivalence on such values.
* `identical_eq`: strict equality, in terms of equality and of types.
-/

namespace Attest

/-! ## Points and readings -/

/-- A point of the extended number line, in lowest terms. -/
inductive Number.Point where
  | infinite (isNegative : Bool)
  | finite (q : ℚ)

/-- The point in lowest terms, if it is one at all. -/
def Number.Extended.point? : Number.Extended → Option Number.Point
  | .undefined => none
  | .negativeInfinity => some (.infinite true)
  | .finite f => some (.finite (f.numerator / 2 ^ f.shift))
  | .positiveInfinity => some (.infinite false)

theorem Number.Fraction.compare_eq_iff {f g : Number.Fraction} :
    f.compare g = .eq ↔ (f.numerator / 2 ^ f.shift : ℚ) = g.numerator / 2 ^ g.shift := by
  have hpow : ∀ k : Nat, (2 : ℚ) ^ k ≠ 0 := fun k => pow_ne_zero k two_ne_zero
  have hcast : ∀ k : Nat, ((Int.pow 2 k : Int) : ℚ) = 2 ^ k := fun k => by
    have hk : Int.pow 2 k = (2 : Int) ^ k := rfl
    rw [hk]
    push_cast
    rfl
  rw [div_eq_div_iff (hpow _) (hpow _), Number.Fraction.compare,
    compare_eq_iff_eq, ← hcast, ← hcast]
  norm_cast

theorem Number.Extended.compare?_eq_iff {x y : Number.Extended} :
    x.compare? y = some .eq ↔ ∃ p, x.point? = some p ∧ y.point? = some p := by
  cases x <;> cases y <;> simp [compare?, point?, Number.Fraction.compare_eq_iff]
  exact eq_comm

theorem Calendar.compareClocks?_eq_iff {a b : Int} {o p : Option Int} :
    compareClocks? a b o p = some .eq ↔ o.isSome = p.isSome ∧ a - o.getD 0 = b - p.getD 0 := by
  cases o <;> cases p <;> simp [compareClocks?]

namespace Value

open Number (Extended)

/-! ## Atoms -/

/-- What an atom is equal by. -/
inductive Essence where
  | number (p : Number.Point)
  | text (s : String)
  | bytes (bs : List UInt8)
  | reading (isMoment isZoned : Bool) (instant : Int)
  | pattern (source : Pattern.Source) (options : Pattern.Options)
  | validator (id : ObjectId)
  /-- An atom that is equal to itself alone. -/
  | self (v : Value)

/-- What an atom is equal by; nothing for a container, and for an atom that differs from itself. -/
def essence? : Value → Option Essence
  | .bool b => (Extended.finite ⟨if b then 1 else 0, 0⟩).point?.map .number
  | .int n => (Extended.finite ⟨n, 0⟩).point?.map .number
  | .float x => (Number.toExtended x).point?.map .number
  | .text s => some (.text s)
  | .mode m => some (.text m.name)
  | .bytes bs => some (.bytes bs)
  | .moment m => some (.reading true m.time.offset.isSome (m.clock - m.time.offset.getD 0))
  | .time t => some (.reading false t.offset.isSome (t.clock - t.offset.getD 0))
  | .pattern p => some (.pattern p.source p.options)
  | .validator _ _ id => id.map .validator
  | .list _ | .tuple _ | .set _ | .map _ => none
  | v => some (.self v)

variable {a b c : Value}

theorem essence?_eq_number {p : Number.Point} :
    a.essence? = some (.number p) ↔ ∃ x, a.asNumber? = some x ∧ x.point? = some p := by
  cases a <;> simp [essence?, asNumber?, Extended.point?]

theorem essence?_eq_text {s : String} : a.essence? = some (.text s) ↔ a.asText? = some s := by
  cases a <;> simp [essence?, asText?]

/-- What an atom of an essence is. -/
def Essence.IsOf : Essence → Value → Prop
  | .number p, a => ∃ x, a.asNumber? = some x ∧ x.point? = some p
  | .text s, a => a.asText? = some s
  | .bytes bs, a => a = .bytes bs
  | .reading true isZoned instant, a =>
    ∃ m, a = .moment m ∧ m.time.offset.isSome = isZoned ∧ m.clock - m.time.offset.getD 0 = instant
  | .reading false isZoned instant, a =>
    ∃ t, a = .time t ∧ t.offset.isSome = isZoned ∧ t.clock - t.offset.getD 0 = instant
  | .pattern source options, a => ∃ p, a = .pattern p ∧ p.source = source ∧ p.options = options
  | .validator id, a => ∃ kind step, a = .validator kind step (some id)
  | .self v, a => a = v

theorem essence?_isOf {e : Essence} (h : a.essence? = some e) : e.IsOf a := by
  cases a with
  | bool | int | float =>
    rw [essence?, Option.map_eq_some_iff] at h
    obtain ⟨p, hp, rfl⟩ := h
    exact ⟨_, rfl, hp⟩
  | moment m =>
    cases h
    exact ⟨m, rfl, rfl, rfl⟩
  | time t =>
    cases h
    exact ⟨t, rfl, rfl, rfl⟩
  | pattern p =>
    cases h
    exact ⟨p, rfl, rfl, rfl⟩
  | validator kind step id =>
    rw [essence?, Option.map_eq_some_iff] at h
    obtain ⟨id, rfl, rfl⟩ := h
    exact ⟨kind, step, rfl⟩
  | list | tuple | set | map => cases h
  | _ =>
    cases h
    rfl

theorem essence?_of_isOne (h : isOne a b = true) :
    ∃ e, a.essence? = some e ∧ b.essence? = some e := by
  unfold isOne at h
  split at h
  · obtain rfl := eq_of_beq h
    exact ⟨_, rfl, rfl⟩
  · obtain rfl := eq_of_beq h
    exact ⟨_, rfl, rfl⟩
  · obtain rfl := eq_of_beq h
    exact ⟨_, rfl, rfl⟩
  · obtain rfl := eq_of_beq h
    exact ⟨_, rfl, rfl⟩
  · cases h

theorem essence?_of_clocks {isMoment : Bool} {x y : Int} {o p : Option Int}
    (h : (Calendar.compareClocks? x y o p == some .eq) = true) :
    Essence.reading isMoment o.isSome (x - o.getD 0) = .reading isMoment p.isSome
      (y - p.getD 0) := by
  obtain ⟨hzoned, hinstant⟩ := Calendar.compareClocks?_eq_iff.1 (eq_of_beq h)
  rw [hzoned, hinstant]

theorem essence?_of_sameAtom (h : sameAtom a b = true) :
    ∃ e, a.essence? = some e ∧ b.essence? = some e := by
  unfold sameAtom at h
  split at h
  · next x y hx hy =>
    rcases Bool.or_eq_true_iff.1 h with h | h
    · obtain ⟨p, hp, hq⟩ := Extended.compare?_eq_iff.1 (by simpa using h)
      exact ⟨.number p, essence?_eq_number.2 ⟨x, hx, hp⟩, essence?_eq_number.2 ⟨y, hy, hq⟩⟩
    · exact essence?_of_isOne h
  · split at h
    · next s t hs ht =>
      obtain rfl : s = t := by simpa using h
      exact ⟨.text s, essence?_eq_text.2 hs, essence?_eq_text.2 ht⟩
    · split at h
      · exact ⟨_, rfl, rfl⟩
      · exact ⟨_, rfl, rfl⟩
      · obtain rfl := eq_of_beq h
        exact ⟨_, rfl, rfl⟩
      · exact ⟨_, rfl, congrArg some (essence?_of_clocks h).symm⟩
      · obtain rfl := eq_of_beq h
        exact ⟨_, rfl, rfl⟩
      · exact ⟨_, rfl, congrArg some (essence?_of_clocks h).symm⟩
      · next p q _ _ =>
        obtain ⟨hsource, hoptions⟩ := Bool.and_eq_true_iff.1 h
        refine ⟨.pattern p.source p.options, rfl, ?_⟩
        rw [essence?, eq_of_beq hsource, eq_of_beq hoptions]
      · obtain rfl := eq_of_beq h
        exact ⟨_, rfl, rfl⟩
      · obtain rfl := eq_of_beq h
        exact ⟨_, rfl, rfl⟩
      · exact essence?_of_isOne h

theorem sameAtom_of_essence? {e : Essence} (ha : a.essence? = some e) (hb : b.essence? = some e) :
    sameAtom a b = true := by
  cases e with
  | number p =>
    obtain ⟨x, hx, hp⟩ := essence?_eq_number.1 ha
    obtain ⟨y, hy, hq⟩ := essence?_eq_number.1 hb
    simp [sameAtom, hx, hy, Extended.compare?_eq_iff, hp, hq]
  | text s =>
    rw [essence?_eq_text] at ha hb
    have hnone : a.asNumber? = none := by
      cases a with
      | text | mode => rfl
      | _ => cases ha
    simp [sameAtom, ha, hb, hnone]
  | bytes bs =>
    obtain rfl := essence?_isOf ha
    obtain rfl := essence?_isOf hb
    exact beq_self_eq_true bs
  | reading isMoment isZoned instant =>
    cases isMoment with
    | true =>
      obtain ⟨m, rfl, hm, hm'⟩ := essence?_isOf ha
      obtain ⟨n, rfl, hn, hn'⟩ := essence?_isOf hb
      exact beq_iff_eq.2 (Calendar.compareClocks?_eq_iff.2 ⟨hm.trans hn.symm, hm'.trans hn'.symm⟩)
    | false =>
      obtain ⟨t, rfl, ht, ht'⟩ := essence?_isOf ha
      obtain ⟨u, rfl, hu, hu'⟩ := essence?_isOf hb
      exact beq_iff_eq.2 (Calendar.compareClocks?_eq_iff.2 ⟨ht.trans hu.symm, ht'.trans hu'.symm⟩)
  | pattern source options =>
    obtain ⟨p, rfl, hp, hp'⟩ := essence?_isOf ha
    obtain ⟨q, rfl, hq, hq'⟩ := essence?_isOf hb
    exact Bool.and_eq_true_iff.2 ⟨beq_iff_eq.2 (hp.trans hq.symm),
      beq_iff_eq.2 (hp'.trans hq'.symm)⟩
  | validator id =>
    obtain ⟨kind, step, rfl⟩ := essence?_isOf ha
    obtain ⟨kind', step', rfl⟩ := essence?_isOf hb
    exact beq_self_eq_true id
  | self v =>
    obtain rfl := essence?_isOf ha
    obtain rfl := essence?_isOf hb
    cases b with
    | missing | null => rfl
    | nan | date | type | object | function | up => exact beq_self_eq_true _
    | _ => simp [essence?] at ha

/-- Atoms are equal where they have one essence. -/
theorem sameAtom_iff : sameAtom a b = true ↔ ∃ e, a.essence? = some e ∧ b.essence? = some e :=
  ⟨essence?_of_sameAtom, fun ⟨_, ha, hb⟩ => sameAtom_of_essence? ha hb⟩

theorem sameAtom_trans (h : sameAtom a b = true) (h' : sameAtom b c = true) :
    sameAtom a c = true := by
  obtain ⟨e, ha, hb⟩ := sameAtom_iff.1 h
  obtain ⟨e', hb', hc⟩ := sameAtom_iff.1 h'
  rw [hb, Option.some.injEq] at hb'
  exact sameAtom_iff.2 ⟨e, ha, hb' ▸ hc⟩

/-! ## Containers -/

/-- Whether a value holds no other values. -/
def isAtom : Value → Bool
  | .list _ | .tuple _ | .set _ | .map _ => false
  | _ => true

section

variable {P : Value → Prop} (list : ∀ xs, (∀ x ∈ xs, P x) → P (.list xs))
  (tuple : ∀ xs, (∀ x ∈ xs, P x) → P (.tuple xs)) (set : ∀ xs, (∀ x ∈ xs, P x) → P (.set xs))
  (map : ∀ xs, (∀ e ∈ xs, P e.1 ∧ P e.2) → P (.map xs)) (atom : ∀ v, v.isAtom = true → P v)

include list tuple set map atom

set_option linter.unusedSectionVars false in
mutual

/-- What holds of atoms, and of a container where it holds of all that it holds, holds of every
value. -/
@[elab_as_elim]
theorem containers_induction : ∀ v, P v
  | .list xs => list xs (items_induction xs)
  | .tuple xs => tuple xs (items_induction xs)
  | .set xs => set xs (items_induction xs)
  | .map xs => map xs (entries_induction xs)
  | .missing | .null | .bool _ | .int _ | .float _ | .nan _ | .text _ | .bytes _ | .moment _
  | .date _
  | .time _ | .pattern _ | .mode _ | .type _ | .object _ | .function _ | .validator _ _ _
  | .up _ => atom _ rfl

theorem items_induction : ∀ xs : List Value, ∀ x ∈ xs, P x
  | [] => List.forall_mem_nil _
  | x :: xs => List.forall_mem_cons.2 ⟨containers_induction x, items_induction xs⟩

theorem entries_induction : ∀ xs : List (Value × Value), ∀ e ∈ xs, P e.1 ∧ P e.2
  | [] => List.forall_mem_nil _
  | (k, v) :: xs =>
    List.forall_mem_cons.2 ⟨⟨containers_induction k, containers_induction v⟩, entries_induction xs⟩

end

end

theorem sameAll_iff {xs ys : List Value} :
    sameAll xs ys = true ↔ List.Forall₂ (fun x y => x.same y = true) xs ys := by
  induction xs generalizing ys with
  | nil => cases ys <;> simp [sameAll]
  | cons x xs ih => cases ys <;> simp [sameAll, ih]

theorem allAmong_iff {xs ys : List Value} :
    allAmong xs ys = true ↔ ∀ x ∈ xs, ∃ y ∈ ys, x.same y = true := by
  induction xs with
  | nil => simp [allAmong]
  | cons x xs ih => simp [allAmong, ih]

theorem entriesAmong_iff {xs ys : List (Value × Value)} : entriesAmong xs ys = true ↔
    ∀ e ∈ xs, ∃ f ∈ ys, e.1.same f.1 = true ∧ e.2.same f.2 = true := by
  induction xs with
  | nil => simp [entriesAmong]
  | cons e xs ih =>
    rw [entriesAmong, Bool.and_eq_true, ih, List.any_eq_true, List.forall_mem_cons]
    simp only [Bool.and_eq_true]

theorem same_list {xs : List Value} : (Value.list xs).same b = true ↔
    ∃ ys, b = .list ys ∧ List.Forall₂ (fun x y => x.same y = true) xs ys := by
  cases b <;> simp [same, sameAll_iff, sameAtom, asNumber?, asText?, isOne]

theorem same_tuple {xs : List Value} : (Value.tuple xs).same b = true ↔
    ∃ ys, b = .tuple ys ∧ List.Forall₂ (fun x y => x.same y = true) xs ys := by
  cases b <;> simp [same, sameAll_iff, sameAtom, asNumber?, asText?, isOne]

theorem same_set {xs : List Value} : (Value.set xs).same b = true ↔
    ∃ ys, b = .set ys ∧ xs.length = ys.length ∧ ∀ x ∈ xs, ∃ y ∈ ys, x.same y = true := by
  cases b <;> simp [same, allAmong_iff, sameAtom, asNumber?, asText?, isOne]

theorem same_map {xs : List (Value × Value)} : (Value.map xs).same b = true ↔
    ∃ ys, b = .map ys ∧ xs.length = ys.length ∧
      ∀ e ∈ xs, ∃ f ∈ ys, e.1.same f.1 = true ∧ e.2.same f.2 = true := by
  cases b with
  | map ys =>
    simp only [same, Bool.and_eq_true, beq_iff_eq, entriesAmong_iff, map.injEq, exists_eq_left']
  | _ =>
    refine ⟨fun h => ?_, nofun⟩
    simp [same, sameAtom, asNumber?, asText?, isOne] at h

theorem same_atom (ha : a.isAtom = true) : a.same b = sameAtom a b := by
  unfold same
  split
  all_goals first
    | rfl
    | cases ha

/-- What is equal to an atom is an atom. -/
theorem isAtom_of_sameAtom (h : sameAtom a b = true) : b.isAtom = true := by
  obtain ⟨e, -, hb⟩ := essence?_of_sameAtom h
  cases b <;> first | rfl | cases hb

theorem forall₂_same_trans {xs ys zs : List Value}
    (ih : ∀ x ∈ xs, ∀ {y z : Value}, x.same y = true → y.same z = true → x.same z = true)
    (h : List.Forall₂ (fun x y => x.same y = true) xs ys)
    (h' : List.Forall₂ (fun x y => x.same y = true) ys zs) :
    List.Forall₂ (fun x y => x.same y = true) xs zs := by
  induction h generalizing zs with
  | nil => exact h'
  | cons hxy _ ihs =>
    cases h' with
    | cons hyz h' =>
      exact .cons (ih _ List.mem_cons_self hxy hyz)
        (ihs (fun x hx => ih x (List.mem_cons_of_mem _ hx)) h')

/-- Equality is transitive. -/
theorem same_trans (h : a.same b = true) (h' : b.same c = true) : a.same c = true := by
  -- nothing is asked of the values: neither order nor repetition of items gets in the way
  induction a using containers_induction generalizing b c with
  | list xs ih =>
    obtain ⟨ys, rfl, hxy⟩ := same_list.1 h
    obtain ⟨zs, rfl, hyz⟩ := same_list.1 h'
    exact same_list.2 ⟨zs, rfl, forall₂_same_trans ih hxy hyz⟩
  | tuple xs ih =>
    obtain ⟨ys, rfl, hxy⟩ := same_tuple.1 h
    obtain ⟨zs, rfl, hyz⟩ := same_tuple.1 h'
    exact same_tuple.2 ⟨zs, rfl, forall₂_same_trans ih hxy hyz⟩
  | set xs ih =>
    obtain ⟨ys, rfl, hlen, hxy⟩ := same_set.1 h
    obtain ⟨zs, rfl, hlen', hyz⟩ := same_set.1 h'
    refine same_set.2 ⟨zs, rfl, hlen.trans hlen', fun x hx => ?_⟩
    obtain ⟨y, hy, hxy⟩ := hxy x hx
    obtain ⟨z, hz, hyz⟩ := hyz y hy
    exact ⟨z, hz, ih x hx hxy hyz⟩
  | map xs ih =>
    obtain ⟨ys, rfl, hlen, hxy⟩ := same_map.1 h
    obtain ⟨zs, rfl, hlen', hyz⟩ := same_map.1 h'
    refine same_map.2 ⟨zs, rfl, hlen.trans hlen', fun e he => ?_⟩
    obtain ⟨f, hf, hk, hv⟩ := hxy e he
    obtain ⟨g, hg, hk', hv'⟩ := hyz f hf
    exact ⟨g, hg, (ih e he).1 hk hk', (ih e he).2 hv hv'⟩
  | atom a ha =>
    rw [same_atom ha] at h ⊢
    rw [same_atom (isAtom_of_sameAtom h)] at h'
    exact sameAtom_trans h h'

/-! ## Keys -/

/-- What is equal to a value that can be hashed can be hashed. -/
theorem unhashable?_of_same (ha : a.unhashable? = none) (h : a.same b = true) :
    b.unhashable? = none := by
  induction a using containers_induction generalizing b with
  | list xs ih => cases ha
  | tuple xs ih =>
    obtain ⟨ys, rfl, hxy⟩ := same_tuple.1 h
    rw [unhashable?] at ha ⊢
    clear h
    induction hxy with
    | nil => rfl
    | cons hxy _ ihs =>
      rw [unhashableAmong?, Option.or_eq_none_iff] at ha ⊢
      exact ⟨ih _ List.mem_cons_self ha.1 hxy,
        ihs (fun x hx => ih x (List.mem_cons_of_mem _ hx)) ha.2⟩
  | set xs ih => cases ha
  | map xs ih => cases ha
  | atom a hatom =>
    rw [same_atom hatom] at h
    have hb := isAtom_of_sameAtom h
    cases b <;> first | rfl | cases hb

/-- Equality with a value that can be hashed can be read in both directions. -/
theorem same_comm_of_hashable (ha : a.unhashable? = none) : a.same b = b.same a := by
  rw [Bool.eq_iff_iff]
  exact ⟨fun h => same_symm (unhashable?_of_same ha h) h, same_symm ha⟩

/-- Where every item of a list is related to an item of another one of the same length, and no two
of them to the same item, every item there has one that is related to it. -/
theorem exists_related {α : Type} {R : α → α → Prop} {xs ys : List α} (hlen : xs.length = ys.length)
    (h : ∀ x ∈ xs, ∃ y ∈ ys, R x y) (hne : xs.Pairwise fun x x' => ∀ y, R x y → ¬ R x' y) :
    ∀ y ∈ ys, ∃ x ∈ xs, R x y := by
  have hpartner : ∀ i : Fin xs.length, ∃ j : Fin ys.length, R xs[i] ys[j] := fun i => by
    obtain ⟨y, hy, hxy⟩ := h _ (List.getElem_mem i.isLt)
    obtain ⟨j, hj, rfl⟩ := List.getElem_of_mem hy
    exact ⟨⟨j, hj⟩, hxy⟩
  choose f hf using hpartner
  have hinjective : Function.Injective f := by
    have hlt : ∀ {i i' : Fin xs.length}, i < i' → f i ≠ f i' := fun {i i'} hii heq =>
      List.pairwise_iff_getElem.1 hne i i' i.isLt i'.isLt hii _ (hf i) (heq ▸ hf i')
    intro i i' heq
    by_contra hii
    rcases Nat.lt_or_gt_of_ne (Fin.val_ne_of_ne hii) with hlt' | hlt'
    · exact hlt hlt' heq
    · exact hlt hlt' heq.symm
  have hsurjective :=
    ((Fintype.bijective_iff_injective_and_card f).2 ⟨hinjective, by simp [hlen]⟩).surjective
  intro y hy
  obtain ⟨j, hj, rfl⟩ := List.getElem_of_mem hy
  obtain ⟨i, hi⟩ := hsurjective ⟨j, hj⟩
  have hij := hf i
  rw [hi] at hij
  exact ⟨_, List.getElem_mem i.isLt, hij⟩

/-- Whether values can be the keys of one map, or the items of one set. -/
def areKeys (keys : List Value) : Bool :=
  keys.all (fun k => k.unhashable?.isNone) && decide (keys.Pairwise fun k l => k.same l = false)

theorem areKeys_iff {keys : List Value} : areKeys keys = true ↔
    (∀ k ∈ keys, k.unhashable? = none) ∧ keys.Pairwise fun k l => k.same l = false := by
  simp [areKeys]

/-! ## Values that are equal to themselves -/

mutual

/-- Whether equality can be relied on: neither the value nor anything in it differs from itself or
leads back to a container around it, and the keys of all maps in it and the items of all sets are
different. -/
def isComparable : Value → Bool
  | .list items | .tuple items => areComparable items
  | .set items => areComparable items && areKeys items
  | .map entries => entriesAreComparable entries && areKeys (entries.map (·.1))
  | .up _ => false
  | v => v.sameAtom v

def areComparable : List Value → Bool
  | [] => true
  | v :: rest => isComparable v && areComparable rest

def entriesAreComparable : List (Value × Value) → Bool
  | [] => true
  | (k, v) :: rest => isComparable k && isComparable v && entriesAreComparable rest

end

theorem areComparable_iff {items : List Value} :
    areComparable items = true ↔ ∀ v ∈ items, v.isComparable = true := by
  induction items with
  | nil => simp [areComparable]
  | cons v rest ih => simp [areComparable, ih]

theorem entriesAreComparable_iff {entries : List (Value × Value)} :
    entriesAreComparable entries = true ↔
    ∀ e ∈ entries, e.1.isComparable = true ∧ e.2.isComparable = true := by
  induction entries with
  | nil => simp [entriesAreComparable]
  | cons e rest ih =>
    rw [entriesAreComparable, Bool.and_eq_true, Bool.and_eq_true, ih, List.forall_mem_cons]

theorem isComparable_set {xs : List Value} (h : (Value.set xs).isComparable = true) :
    (∀ x ∈ xs, x.isComparable = true) ∧ (∀ x ∈ xs, x.unhashable? = none) ∧
      xs.Pairwise fun x y => x.same y = false := by
  rwa [isComparable, Bool.and_eq_true, areComparable_iff, areKeys_iff] at h

theorem isComparable_map {xs : List (Value × Value)} (h : (Value.map xs).isComparable = true) :
    (∀ e ∈ xs, e.1.isComparable = true ∧ e.2.isComparable = true) ∧
    (∀ e ∈ xs, e.1.unhashable? = none) ∧
      xs.Pairwise fun e f => e.1.same f.1 = false := by
  rw [isComparable, Bool.and_eq_true, entriesAreComparable_iff, areKeys_iff, List.pairwise_map] at h
  exact ⟨h.1, fun e he => h.2.1 _ (List.mem_map_of_mem he), h.2.2⟩

/-- Equality is reflexive on values that are equal to themselves in all their parts. -/
theorem same_refl (ha : a.isComparable = true) : a.same a = true := by
  induction a using containers_induction with
  | list xs ih =>
    exact same_list.2 ⟨xs, rfl, List.forall₂_same.2 fun x hx =>
      ih x hx (areComparable_iff.1 ha x hx)⟩
  | tuple xs ih =>
    exact same_tuple.2 ⟨xs, rfl, List.forall₂_same.2 fun x hx =>
      ih x hx (areComparable_iff.1 ha x hx)⟩
  | set xs ih =>
    exact same_set.2 ⟨xs, rfl, rfl, fun x hx => ⟨x, hx, ih x hx ((isComparable_set ha).1 x hx)⟩⟩
  | map xs ih =>
    refine same_map.2 ⟨xs, rfl, rfl, fun e he => ?_⟩
    obtain ⟨hk, hv⟩ := (isComparable_map ha).1 e he
    exact ⟨e, he, (ih e he).1 hk, (ih e he).2 hv⟩
  | atom a hatom =>
    rw [same_atom hatom]
    cases a <;> first | exact ha | cases ha | cases hatom

theorem forall₂_same_symm {xs ys : List Value}
    (ih : ∀ x ∈ xs, ∀ y ∈ ys, x.same y = true → y.same x = true)
    (h : List.Forall₂ (fun x y => x.same y = true) xs ys) :
    List.Forall₂ (fun x y => x.same y = true) ys xs := by
  induction h with
  | nil => exact .nil
  | cons hxy _ ihs =>
    exact .cons (ih _ List.mem_cons_self _ List.mem_cons_self hxy)
      (ihs fun x hx y hy => ih x (List.mem_cons_of_mem _ hx) y (List.mem_cons_of_mem _ hy))

theorem same_symm_of_comparable (ha : a.isComparable = true) (hb : b.isComparable = true)
    (h : a.same b = true) : b.same a = true := by
  induction a using containers_induction generalizing b with
  | list xs ih =>
    obtain ⟨ys, rfl, hxy⟩ := same_list.1 h
    exact same_list.2 ⟨xs, rfl, forall₂_same_symm (fun x hx y hy =>
      ih x hx (areComparable_iff.1 ha x hx) (areComparable_iff.1 hb y hy)) hxy⟩
  | tuple xs ih =>
    obtain ⟨ys, rfl, hxy⟩ := same_tuple.1 h
    exact same_tuple.2 ⟨xs, rfl, forall₂_same_symm (fun x hx y hy =>
      ih x hx (areComparable_iff.1 ha x hx) (areComparable_iff.1 hb y hy)) hxy⟩
  | set xs ih =>
    obtain ⟨ys, rfl, hlen, hxy⟩ := same_set.1 h
    obtain ⟨-, hhash, hne⟩ := isComparable_set ha
    obtain ⟨-, hhash', -⟩ := isComparable_set hb
    -- no item of the one set is equal to two of the other one, so that every item there is met
    have hmet :=
      exists_related hlen hxy (List.Pairwise.imp_of_mem (fun {x x'} hx hx' hxx y hxy hxy' => by
      rw [same_comm_of_hashable (hhash x' hx')] at hxy'
      rw [same_trans hxy hxy'] at hxx
      cases hxx) hne)
    refine same_set.2 ⟨xs, rfl, hlen.symm, fun y hy => ?_⟩
    obtain ⟨x, hx, hxy⟩ := hmet y hy
    exact ⟨x, hx, same_comm_of_hashable (hhash' y hy) ▸ hxy⟩
  | map xs ih =>
    obtain ⟨ys, rfl, hlen, hxy⟩ := same_map.1 h
    obtain ⟨hall, hhash, hne⟩ := isComparable_map ha
    obtain ⟨hall', hhash', -⟩ := isComparable_map hb
    have hmet :=
      exists_related hlen hxy (List.Pairwise.imp_of_mem (fun {e e'} he he' hee f hef hef' => by
      have hkey := hef'.1
      rw [same_comm_of_hashable (hhash e' he')] at hkey
      rw [same_trans hef.1 hkey] at hee
      cases hee) hne)
    refine same_map.2 ⟨xs, rfl, hlen.symm, fun f hf => ?_⟩
    obtain ⟨e, he, hk, hv⟩ := hmet f hf
    exact ⟨e, he, same_comm_of_hashable (hhash' f hf) ▸ hk, (ih e he).2 (hall e he).2
      (hall' f hf).2 hv⟩
  | atom a hatom =>
    rw [same_atom hatom] at h
    rw [same_atom (isAtom_of_sameAtom h)]
    exact sameAtom_symm h

theorem same_comm (ha : a.isComparable = true) (hb : b.isComparable = true) :
    a.same b = b.same a := by
  rw [Bool.eq_iff_iff]
  exact ⟨same_symm_of_comparable ha hb, same_symm_of_comparable hb ha⟩

/-! ## Parts -/

/-- No reference is met where equality can be relied on. -/
theorem isClosedIn_of_comparable {d : Nat} (ha : a.isComparable = true) :
    a.isClosedIn d = true := by
  induction a using containers_induction generalizing d with
  | list xs ih | tuple xs ih =>
    exact areClosedIn_iff.2 fun x hx => ih x hx (areComparable_iff.1 ha x hx)
  | set xs ih => exact areClosedIn_iff.2 fun x hx => ih x hx ((isComparable_set ha).1 x hx)
  | map xs ih =>
    exact entriesAreClosedIn_iff.2 fun e he => (ih e he).2 ((isComparable_map ha).1 e he).2
  | atom a hatom => cases a <;> first | rfl | cases ha | cases hatom

theorem isClosed_of_comparable (ha : a.isComparable = true) :
    a.isClosed = true := isClosedIn_of_comparable ha

theorem someHoldsReference_iff {items : List Value} :
    someHoldsReference items = true ↔ ∃ v ∈ items, v.holdsReference = true := by
  induction items with
  | nil => simp [someHoldsReference]
  | cons v rest ih => simp [someHoldsReference, ih]

theorem someEntryHoldsReference_iff {entries : List (Value × Value)} :
    someEntryHoldsReference entries = true ↔ ∃ e ∈ entries, e.2.holdsReference = true := by
  induction entries with
  | nil => simp [someEntryHoldsReference]
  | cons e rest ih => rw [someEntryHoldsReference, Bool.or_eq_true, ih, List.exists_mem_cons_iff]

theorem holdsReference_of_comparable (ha : a.isComparable = true) : a.holdsReference = false := by
  rw [Bool.eq_false_iff]
  induction a using containers_induction with
  | list xs ih | tuple xs ih =>
    intro h
    obtain ⟨x, hx, h⟩ := someHoldsReference_iff.1 h
    exact ih x hx (areComparable_iff.1 ha x hx) h
  | set xs ih =>
    intro h
    obtain ⟨x, hx, h⟩ := someHoldsReference_iff.1 h
    exact ih x hx ((isComparable_set ha).1 x hx) h
  | map xs ih =>
    intro h
    obtain ⟨e, he, h⟩ := someEntryHoldsReference_iff.1 h
    exact (ih e he).2 ((isComparable_map ha).1 e he).2 h
  | atom a hatom => cases a <;> first | exact Bool.false_ne_true | cases ha | cases hatom

theorem mapIdx_takenOut (whole : Value) {xs : List Value} (h : ∀ x ∈ xs, x.isComparable = true) :
    xs.mapIdx (fun i x => whole.takenOut [i] x) = xs := by
  apply List.ext_getElem
  · simp
  · intro i h1 h2
    rw [List.getElem_mapIdx]
    exact takenOut_of_isClosed _ _ (isClosed_of_comparable (h _ (List.getElem_mem h2)))

theorem entries?_of_comparable {xs : List (Value × Value)}
    (h : (Value.map xs).isComparable = true) :
    (Value.map xs).entries? = some xs :=
  entries?_map_of_isClosed fun e he => isClosed_of_comparable ((isComparable_map h).1 e he).2

/-! ## Strict equality -/

/-- What strict equality takes for the type of a value: all numbers are of one type. -/
def strictType (v : Value) : String := if v.isNumber then "int" else v.typeName

theorem foreign_ne (t : ForeignType) : t.name ≠ "bool" ∧ t.name ≠ "int" ∧ t.name ≠ "float" := by
  have h := t.isForeign
  simp only [List.mem_cons, List.not_mem_nil, or_false, not_or] at h
  exact h

theorem typeName_ne (n : Nature) :
    n.typeName ≠ "bool" ∧ n.typeName ≠ "int" ∧ n.typeName ≠ "float" := by
  cases n with
  | bare => decide
  | real t _ _ => exact foreign_ne t
  | trouble t _ => exact foreign_ne t

theorem isBool_iff : a.isBool = true ↔ a.strictType = "bool" := by
  cases a with
  | validator kind step id =>
    cases kind <;> simp [isBool, strictType, isNumber, typeName, Kind.className]
  | object o => simp [isBool, strictType, isNumber, typeName, typeName_ne]
  | _ => simp [isBool, strictType, isNumber, typeName]

theorem isNumber_iff : a.isNumber = true ↔ a.strictType = "int" := by
  cases a with
  | validator kind step id => cases kind <;> simp [strictType, isNumber, typeName, Kind.className]
  | object o => simp [strictType, isNumber, typeName, typeName_ne]
  | _ => simp [strictType, isNumber, typeName]

theorem isNumber_iff_typeName : a.isNumber = true ↔ a.typeName = "int" ∨ a.typeName = "float" := by
  cases a with
  | validator kind step id => cases kind <;> simp [isNumber, typeName, Kind.className]
  | object o => simp [isNumber, typeName, typeName_ne]
  | _ => simp [isNumber, typeName]

theorem strictType_congr (h : a.typeName = b.typeName) : a.strictType = b.strictType := by
  have hnumber : a.isNumber = b.isNumber := by
    rw [Bool.eq_iff_iff, isNumber_iff_typeName, isNumber_iff_typeName, h]
  rw [strictType, strictType, hnumber, h]

/-- Only values of one type can be strictly equal; truth values and numbers are compared as such. -/
theorem withinTypes_eq (a b : Value) (x : Except Fault Bool) : withinTypes a b x =
    if a.strictType = b.strictType then (if a.isBool || a.isNumber then .ok (a.same b) else x)
    else .ok false := by
  by_cases htype : a.strictType = b.strictType
  · have hbool : a.isBool = b.isBool := by rw [Bool.eq_iff_iff, isBool_iff, isBool_iff, htype]
    have hnumber : a.isNumber = b.isNumber := by
      rw [Bool.eq_iff_iff, isNumber_iff, isNumber_iff, htype]
    rw [if_pos htype, withinTypes, hbool, hnumber]
    cases hb : b.isBool with
    | true => simp
    | false =>
      cases hn : b.isNumber with
      | true => simp
      | false =>
        rw [strictType, strictType, hnumber, hn] at htype
        simpa using fun hne => absurd htype hne
  · have hbool : (a.isBool && b.isBool) = false := by
      rw [Bool.and_eq_false_iff]
      by_contra hboth
      rw [not_or, Bool.not_eq_false, Bool.not_eq_false, isBool_iff, isBool_iff] at hboth
      exact htype (hboth.1.trans hboth.2.symm)
    have hnumber : (a.isNumber && b.isNumber) = false := by
      rw [Bool.and_eq_false_iff]
      by_contra hboth
      rw [not_or, Bool.not_eq_false, Bool.not_eq_false, isNumber_iff, isNumber_iff] at hboth
      exact htype (hboth.1.trans hboth.2.symm)
    have hname : (a.typeName == b.typeName) = false := by
      simpa using fun h => htype (strictType_congr h)
    rw [if_neg htype, withinTypes, hbool, hnumber, hname]
    simp

/-- Strict equality of values of which neither holds itself. -/
theorem identical_eq (ha : a.holdsReference = false) (hb : b.holdsReference = false) :
    a.identical b = .ok (a.same b && a.strictType == b.strictType) := by
  rw [identical, withinTypes_eq, equals_of_not_holdsReference ha hb, ite_self]
  by_cases htype : a.strictType = b.strictType
  · simp [htype]
  · simp [htype]

theorem identical_eq_of_comparable (ha : a.isComparable = true) (hb : b.isComparable = true) :
    a.identical b = .ok (a.same b && a.strictType == b.strictType) :=
  identical_eq (holdsReference_of_comparable ha) (holdsReference_of_comparable hb)

end Value

end Attest
