import Attest.Building
import Attest.Proofs.Comparison
import Attest.Proofs.Outcome
import Attest.Method

/-!
# Membership

Membership in a list of candidates, from which all have been dropped that are strictly equal to an
earlier one. Strict equality is an equivalence, so nothing is lost with them: whatever is strictly
equal to a candidate that was dropped is so to the one that was kept in its place.

* `Value.Firsts`: the first items of a list of all that are strictly equal.
* `dropEqual_firsts`: what is left when all that equals something earlier is dropped.
* `Validator.membership`: what a check of membership, and its negation, and one of distinctness come
  to.
-/

namespace Attest

namespace Value

/-! ## Decided questions -/

/-- A question that is decided for all items of a list is decided for one of them. -/
theorem anyM_ok {α : Type} {p : α → Except Fault Bool} {l : List α}
    (h : ∀ y ∈ l, ∃ r, p y = .ok r) :
    ∃ r, l.anyM p = .ok r ∧ (r = true ↔ ∃ y ∈ l, p y = .ok true) := by
  induction l with
  | nil => exact ⟨false, rfl, by simp⟩
  | cons y l ih =>
    obtain ⟨r, hr, hiff⟩ := ih fun z hz => h z (List.mem_cons_of_mem _ hz)
    obtain ⟨q, hq⟩ := h y List.mem_cons_self
    rw [List.anyM_cons, hq]
    cases q with
    | true => exact ⟨true, rfl, by simp [hq]⟩
    | false => exact ⟨r, hr, by rw [hiff]; simp [hq]⟩

theorem anyM_eq_false {α : Type} {p : α → Except Fault Bool} {l : List α}
    (h : l.anyM p = .ok false) :
    ∀ y ∈ l, p y = .ok false := by
  induction l with
  | nil => exact List.forall_mem_nil _
  | cons y l ih =>
    rw [List.anyM_cons] at h
    obtain ⟨q, hq, h⟩ := Attempt.bind_eq_ok.1 h
    cases q with
    | true => cases h
    | false => exact List.forall_mem_cons.2 ⟨hq, ih h⟩

variable {items found before kept : List Value} {x : Value}

theorem comparable_snoc (h : ∀ v ∈ before, v.isComparable = true) (hx : x.isComparable = true) :
    ∀ v ∈ before ++ [x], v.isComparable = true := by
  intro v hv
  rcases List.mem_append.1 hv with hv | hv
  · exact h v hv
  · rw [List.mem_singleton.1 hv]
    exact hx

theorem distinct_snoc (h : kept.Pairwise fun x y => x.identical y = .ok false)
    (hx : ∀ y ∈ kept, y.identical x = .ok false) :
    (kept ++ [x]).Pairwise fun x y => x.identical y = .ok false :=
  List.pairwise_append.2 ⟨h, List.pairwise_singleton _ _, fun y hy z hz => by
    rw [List.mem_singleton.1 hz]
    exact hx y hy⟩

theorem isAmong_ok (h : ∀ v ∈ items, v.isComparable = true) (x : Value) :
    ∃ r, isAmong items x = .ok r ∧ (r = true ↔ ∃ v ∈ items, v.identical x = .ok true) :=
  anyM_ok fun v hv => identical_ok (h v hv) x

/-! ## The first of a class -/

/-- Whether there is an item at a position, and nothing strictly equal before it. -/
def IsFirst (items : List Value) (i : Nat) : Prop :=
  ∃ x, items[i]? = some x ∧ ∀ j < i, ∀ y, items[j]? = some y → y.identical x ≠ .ok true

/-- What was found among items are the first ones of all that are strictly equal. -/
structure Firsts (items found : List Value) : Prop where
  sublist : found.Sublist items
  /-- What was found is what stands first, in its order. -/
  positions : ∃ ps : List Nat, ps.Pairwise (· < ·) ∧ (∀ i, i ∈ ps ↔ IsFirst items i) ∧
    ps.filterMap (items[·]?) = found
  distinct : found.Pairwise fun x y => x.identical y = .ok false
  covers : ∀ x ∈ items, ∃ y ∈ found, y.identical x = .ok true

theorem isFirst_snoc {i : Nat} : IsFirst (before ++ [x]) i ↔
    IsFirst before i ∨ i = before.length ∧ ∀ y ∈ before, y.identical x ≠ .ok true := by
  rcases Nat.lt_trichotomy i before.length with hi | rfl | hi
  · have hleft : ∀ j, j ≤ i → (before ++ [x])[j]? = before[j]? := fun j hj =>
      List.getElem?_append_left (Nat.lt_of_le_of_lt hj hi)
    simp only [IsFirst, hleft i (Nat.le_refl i), Nat.ne_of_lt hi, false_and, or_false]
    refine exists_congr fun z => and_congr_right fun _ => forall₂_congr fun j hj => ?_
    rw [hleft j (Nat.le_of_lt hj)]
  · have hnone : ¬ IsFirst before before.length := fun ⟨z, hz, _⟩ => by
      rw [List.getElem?_eq_none (Nat.le_refl _)] at hz
      cases hz
    rw [or_iff_right hnone, eq_self_iff_true, true_and]
    simp only [IsFirst, List.getElem?_concat_length, Option.some.injEq, exists_eq_left']
    constructor
    · intro h y hy
      obtain ⟨j, hj, rfl⟩ := List.getElem_of_mem hy
      exact h j hj _ (by rw [List.getElem?_append_left hj, List.getElem?_eq_getElem hj])
    · intro h j hj y hy
      rw [List.getElem?_append_left hj] at hy
      exact h y (List.mem_of_getElem? hy)
  · have hnone : ∀ l : List Value, l.length ≤ i → ¬ IsFirst l i := fun l hl ⟨z, hz, _⟩ => by
      rw [List.getElem?_eq_none hl] at hz
      cases hz
    have hlen : (before ++ [x]).length ≤ i := by
      rw [List.length_append, List.length_singleton]
      exact hi
    simp only [hnone _ hlen, hnone _ (Nat.le_of_lt hi), Nat.ne_of_gt hi, false_and, or_self]

/-- Positions of a list, in a list that is longer. -/
theorem filterMap_snoc {ps : List Nat} (hps : ∀ i ∈ ps, IsFirst before i) (x : Value) :
    ps.filterMap ((before ++ [x])[·]?) = ps.filterMap (before[·]?) := by
  refine List.filterMap_congr fun i hi => ?_
  obtain ⟨z, hz, -⟩ := hps i hi
  exact List.getElem?_append_left (List.getElem?_eq_some_iff.1 hz).1

namespace Firsts

theorem nil : Firsts [] [] where
  sublist := .slnil
  positions := ⟨[], .nil, by simp [IsFirst], rfl⟩
  distinct := .nil
  covers := List.forall_mem_nil _

/-- One item more, to which something before it is strictly equal. -/
theorem skip (h : Firsts before kept) (hx : ∃ y ∈ kept, y.identical x = .ok true) :
    Firsts (before ++ [x]) kept where
  sublist := h.sublist.trans (List.sublist_append_left _ _)
  positions := by
    obtain ⟨ps, hlt, hps, hkept⟩ := h.positions
    refine ⟨ps, hlt, fun i => ?_, (filterMap_snoc (fun i => (hps i).1) x).trans hkept⟩
    obtain ⟨y, hy, hyx⟩ := hx
    have hmet : ¬ ∀ y ∈ before, y.identical x ≠ .ok true :=
      fun hall => hall y (h.sublist.subset hy) hyx
    rw [hps, isFirst_snoc]
    simp only [hmet, and_false, or_false]
  distinct := h.distinct
  covers := fun z hz => by
    rcases List.mem_append.1 hz with hz | hz
    · exact h.covers z hz
    · rw [List.mem_singleton.1 hz]
      exact hx

/-- One item more, to which nothing before it is strictly equal. -/
theorem keep (h : Firsts before kept) (hbefore : ∀ v ∈ before, v.isComparable = true)
    (hx : x.isComparable = true) (hnew : ∀ y ∈ kept, y.identical x = .ok false) :
    Firsts (before ++ [x]) (kept ++ [x]) where
  sublist := h.sublist.append (.refl [x])
  positions := by
    obtain ⟨ps, hlt, hps, hkept⟩ := h.positions
    have hmet : ∀ y ∈ before, y.identical x ≠ .ok true := fun y hy hyx => by
      -- what is kept in its place would be strictly equal as well
      obtain ⟨z, hz, hzy⟩ := h.covers y hy
      have hzx := identical_trans (hbefore z (h.sublist.subset hz)) (hbefore y hy) hzy hyx
      rw [hnew z hz] at hzx
      cases hzx
    refine ⟨ps ++ [before.length], ?_, fun i => ?_, ?_⟩
    · refine List.pairwise_append.2 ⟨hlt, List.pairwise_singleton _ _, fun i hi j hj => ?_⟩
      obtain ⟨z, hz, -⟩ := (hps i).1 hi
      rw [List.mem_singleton.1 hj]
      exact (List.getElem?_eq_some_iff.1 hz).1
    · rw [List.mem_append, hps, List.mem_singleton, isFirst_snoc, and_iff_left hmet]
    · rw [List.filterMap_append, filterMap_snoc (fun i => (hps i).1), hkept]
      simp
  distinct := distinct_snoc h.distinct hnew
  covers := fun z hz => by
    rcases List.mem_append.1 hz with hz | hz
    · obtain ⟨y, hy, hyz⟩ := h.covers z hz
      exact ⟨y, List.mem_append_left _ hy, hyz⟩
    · rw [List.mem_singleton.1 hz]
      exact ⟨x, List.mem_append_right _ List.mem_cons_self, identical_refl hx⟩

/-- Nothing is lost with the items that were dropped: whatever is strictly equal to an item is so to
one that was kept. -/
theorem isAmong_eq (h : Firsts items found) (hitems : ∀ v ∈ items, v.isComparable = true)
    (x : Value) :
    isAmong found x = isAmong items x := by
  obtain ⟨r, hr, hriff⟩ := isAmong_ok (fun v hv => hitems v (h.sublist.subset hv)) x
  obtain ⟨q, hq, hqiff⟩ := isAmong_ok hitems x
  rw [hr, hq, Except.ok.injEq, Bool.eq_iff_iff, hriff, hqiff]
  constructor
  · rintro ⟨v, hv, hvx⟩
    exact ⟨v, h.sublist.subset hv, hvx⟩
  · rintro ⟨v, hv, hvx⟩
    obtain ⟨y, hy, hyv⟩ := h.covers v hv
    exact ⟨y, hy, identical_trans (hitems y (h.sublist.subset hy)) (hitems v hv) hyv hvx⟩

end Firsts

/-! ## Dropping what is equal to something earlier -/

theorem dropEqual_firsts {rest : List Value} (h : Firsts before kept)
    (hbefore : ∀ v ∈ before, v.isComparable = true) (hrest : ∀ v ∈ rest, v.isComparable = true) :
    ∃ found, dropEqual identical kept rest = .ok found ∧ Firsts (before ++ rest) found := by
  induction rest generalizing before kept with
  | nil => exact ⟨kept, rfl, by rwa [List.append_nil]⟩
  | cons x rest ih =>
    have hx := hrest x List.mem_cons_self
    have hsnoc := comparable_snoc hbefore hx
    have hrest' : ∀ v ∈ rest, v.isComparable = true :=
      fun v hv => hrest v (List.mem_cons_of_mem _ hv)
    obtain ⟨r, hr, hriff⟩ := isAmong_ok (fun v hv => hbefore v (h.sublist.subset hv)) x
    rw [isAmong] at hr
    rw [List.append_cons, dropEqual, hr]
    cases r with
    | true => exact ih (h.skip (hriff.1 rfl)) hsnoc hrest'
    | false => exact ih (h.keep hbefore hx (anyM_eq_false hr)) hsnoc hrest'

/-- Where nothing is equal to something earlier, nothing is dropped. -/
theorem dropEqual_of_distinct {rest : List Value}
    (h : (kept ++ rest).Pairwise fun x y => x.identical y = .ok false) :
    dropEqual identical kept rest = .ok (kept ++ rest) := by
  induction rest generalizing kept with
  | nil => rw [List.append_nil]; rfl
  | cons x rest ih =>
    have hany : (kept.anyM fun y => y.identical x) = .ok false := by
      have hall : ∀ y ∈ kept, y.identical x = .ok false := fun y hy =>
        (List.pairwise_append.1 h).2.2 y hy x List.mem_cons_self
      obtain ⟨r, hr, hriff⟩ := anyM_ok (p := fun y => y.identical x) fun y hy => ⟨false, hall y hy⟩
      cases r with
      | false => exact hr
      | true =>
        obtain ⟨y, hy, hyx⟩ := hriff.1 rfl
        rw [hall y hy] at hyx
        cases hyx
    rw [dropEqual, hany]
    rw [List.append_cons] at h
    rw [List.append_cons kept x rest]
    exact ih h

/-! ## Distinct items -/

theorem identicalOrCopy_eq {y : Value} (hx : x.isComparable = true) (hy : y.isComparable = true) :
    x.identicalOrCopy y = x.identical y := by
  rw [identicalOrCopy, identical,
    equals_of_not_holdsReference (holdsReference_of_comparable hx)
      (holdsReference_of_comparable hy)]
  cases x.same y <;> rfl

theorem distinct_iff : (items.Pairwise fun x y => x.identical y = .ok false) ↔
    ∀ (i j : Nat) (y z : Value), i < j → items[i]? = some y → items[j]? = some z →
    y.identical z = .ok false := by
  rw [List.pairwise_iff_getElem]
  constructor
  · intro h i j y z hij hy hz
    obtain ⟨hi, rfl⟩ := List.getElem?_eq_some_iff.1 hy
    obtain ⟨hj, rfl⟩ := List.getElem?_eq_some_iff.1 hz
    exact h i j hi hj hij
  · exact fun h i j hi hj hij => h i j _ _ hij (List.getElem?_eq_getElem hi)
      (List.getElem?_eq_getElem hj)

/-- Whether no two items are strictly equal is decided. -/
theorem allDistinct_ok {rest : List Value} (hkept : ∀ v ∈ kept, v.isComparable = true)
    (hrest : ∀ v ∈ rest, v.isComparable = true)
    (h : kept.Pairwise fun x y => x.identical y = .ok false) :
    ∃ r, allDistinct kept rest = .ok r ∧
      (r = true ↔ (kept ++ rest).Pairwise fun x y => x.identical y = .ok false) := by
  induction rest generalizing kept with
  | nil => exact ⟨true, rfl, by rwa [List.append_nil, eq_self_iff_true, true_iff]⟩
  | cons x rest ih =>
    have hx := hrest x List.mem_cons_self
    have hcomm : ∀ y ∈ kept, x.identicalOrCopy y = y.identical x := fun y hy => by
      rw [identicalOrCopy_eq hx (hkept y hy), identical_comm hx (hkept y hy)]
    obtain ⟨r, hr, hriff⟩ := anyM_ok (p := fun y => x.identicalOrCopy y) (l := kept) fun y hy => by
      rw [hcomm y hy]
      exact identical_ok (hkept y hy) x
    rw [allDistinct, hr]
    cases r with
    | true =>
      obtain ⟨y, hy, hyx⟩ := hriff.1 rfl
      rw [hcomm y hy] at hyx
      refine ⟨false, rfl, ⟨nofun, fun hall => ?_⟩⟩
      rw [(List.pairwise_append.1 hall).2.2 y hy x List.mem_cons_self] at hyx
      cases hyx
    | false =>
      have hnew : ∀ y ∈ kept, y.identical x = .ok false := fun y hy =>
        (hcomm y hy).symm.trans (anyM_eq_false hr y hy)
      rw [List.append_cons kept x rest]
      exact ih (comparable_snoc hkept hx) (fun v hv => hrest v (List.mem_cons_of_mem _ hv))
        (distinct_snoc h hnew)

/-! ## What can be walked through -/

theorem iterate_comparable {v : Value} (hv : v.isComparable = true) (h : v.iterate = .ok items) :
    ∀ x ∈ items, x.isComparable = true := by
  unfold iterate at h
  split at h
  · next s _ =>
    cases h
    intro x hx
    obtain ⟨c, -, rfl⟩ := List.mem_map.1 hx
    simp [isComparable, sameAtom, asNumber?, asText?]
  · cases v with
    | list xs =>
      cases h
      rw [(items_of_comparable hv).1]
      exact areComparable_iff.1 hv
    | tuple xs =>
      cases h
      rw [(items_of_comparable hv).2]
      exact areComparable_iff.1 hv
    | set xs =>
      cases h
      have hxs := (isComparable_set hv).1
      have hitems : (Value.set xs).items = xs := mapIdx_takenOut _ hxs
      rwa [hitems]
    | map xs =>
      cases h
      intro k hk
      obtain ⟨e, he, rfl⟩ := List.mem_map.1 hk
      exact ((isComparable_map hv).1 e he).1
    | bytes bs =>
      cases h
      intro x hx
      obtain ⟨b, -, rfl⟩ := List.mem_map.1 hx
      simp [isComparable, sameAtom, asNumber?, Number.Extended.compare?, Number.Fraction.compare]
    | _ => cases h

end Value

namespace Validator

open Value (Firsts isAmong allDistinct)

variable {v : Validator} {w : World} {args : List Value} {x : Value}

/-! ## Candidates -/

/-- Candidates are the first ones of the items of a value, and not all of them are null. -/
theorem candidates_eq_ok {values : Value} {argument : String} {found : List Value}
    (hvalues : values.isComparable = true) (h : candidates values argument = .ok found) :
    ∃ items, values.iterate = .ok items ∧ (∀ v ∈ items, v.isComparable = true) ∧
    Firsts items found ∧
      found.all Value.isNullish = false := by
  unfold candidates at h
  split at h
  case h_1 | h_2 | h_3 => cases h
  split at h
  · cases h
  · next items hitems =>
    have hcomparable := Value.iterate_comparable hvalues hitems
    have hplaced : values.hasPlacedItems = false := by
      unfold Value.hasPlacedItems
      split
      · exact Value.holdsReference_of_comparable hvalues
      · exact Value.holdsReference_of_comparable hvalues
      · rfl
    obtain ⟨firsts, hdrop, hfirsts⟩ :=
      Value.dropEqual_firsts .nil (List.forall_mem_nil _) hcomparable
    rw [Value.distinct, hplaced, if_neg Bool.false_ne_true, hdrop] at h
    obtain ⟨_, heq, h⟩ := Attempt.bind_eq_ok.1 h
    cases heq
    split at h
    · cases h
    · next hnull =>
      cases h
      exact ⟨items, hitems, hcomparable, hfirsts, Bool.eq_false_iff.2 hnull⟩

/-- The name of the argument is for messages only. -/
theorem candidates_of_eq_ok {values : Value} {argument : String} {found : List Value}
    (h : candidates values argument = .ok found) (argument' : String) :
    candidates values argument' = .ok found := by
  unfold candidates at h ⊢
  split at h
  case h_1 | h_2 | h_3 => cases h
  split at h
  · cases h
  · next items hitems =>
    obtain ⟨firsts, hfirsts, h⟩ := Attempt.bind_eq_ok.1 h
    split at h
    · cases h
    · next hnull =>
      cases h
      simp only [hfirsts, Attempt.ok_bind, if_neg hnull]

/-- Candidates that are different stay as they are. -/
theorem candidates_list {found : List Value} (hfound : ∀ v ∈ found, v.isComparable = true)
    (hdistinct : found.Pairwise fun x y => x.identical y = .ok false)
    (hnull : found.all Value.isNullish = false) (argument : String) :
    candidates (.list found) argument = .ok found := by
  have hlist : (Value.list found).isComparable = true := Value.areComparable_iff.2 hfound
  have hiterate : (Value.list found).iterate = .ok found :=
    Value.iterate_list_of_isClosed fun v hv => Value.isClosed_of_comparable (hfound v hv)
  have hplaced : (Value.list found).hasPlacedItems = false :=
    Value.holdsReference_of_comparable hlist
  have hdrop : Value.dropEqual Value.identical [] found = .ok found :=
    Value.dropEqual_of_distinct hdistinct
  simp only [candidates, hiterate, Value.distinct, hplaced, Bool.false_eq_true, ↓reduceIte,
    hdrop, Except.mapError, Attempt.ok_bind, hnull]

/-! ## Checks -/

/-- Whether the predicate of a check asks nothing but the check. -/
def AsksItself (c : Check) (w : World) : Prop :=
  c.program w = Program.pure fun v => do return .bool (← c.holds w.now v)

/-- A check answers the value that it holds of, and raises something where it does not. -/
theorem check_outcome {c : Check} {r : Bool} (hx : (v.call w args).outcome = .ok x)
    (hc : AsksItself c w) (hr : c.holds w.now x = .ok r) (message expected : Value)
    (comparison : String) :
    (r = true → ((v.check c message expected comparison).call w args).outcome = .ok x) ∧
      (r = false → ∃ e, ((v.check c message expected comparison).call w args).outcome = .error
        e) := by
  have hverdict : (c.program w [x]) = Call.returned (.bool r) := by
    rw [hc, Program.pure, firstArgument, List.headD_cons, hr]
    rfl
  have hcheck : ((v.check c message expected comparison).call w args).outcome =
      ((Program.satisfying (c.program w) message expected comparison).guarded (.text "transform")
        [x]).outcome := by
    rw [check, andThen, call, Step.program, Program.andThen_eq, Call.outcome_next]
    have hv : (v.step.program w (if args.isEmpty then [.missing] else args)).outcome = .ok x := hx
    rw [hv, Step.program]
    rfl
  rw [hcheck, Program.guarded_eq, Call.outcome_mapRaised, Program.satisfying_eq]
  simp only [firstArgument, List.headD_cons, Call.outcome_next, Program.guarded_eq,
    Call.outcome_mapRaised, hverdict, Call.outcome_returned]
  cases r with
  | true => exact ⟨fun _ => rfl, by simp⟩
  | false => exact ⟨by simp, fun _ => ⟨_, rfl⟩⟩

/-- Strict equality is an equivalence on values that are equal to themselves in all their parts. So
candidates are the first ones of their classes, membership among them is membership in the original
list, and of a check of membership and its negation just one accepts an answer. Items are distinct
where no two are strictly equal. -/
theorem membership :
    Equivalence (fun a b : { v : Value // v.isComparable = true } => a.1.identical b.1 = .ok true) ∧
    (∀ a b : Value, a.isComparable = true → ∃ r, a.identical b = .ok r) ∧
    (∀ (values : Value) (argument : String) (found : List Value), values.isComparable = true →
      candidates values argument = .ok found →
      ∃ items, values.iterate = .ok items ∧ Firsts items found ∧
        (∀ argument', candidates (.list found) argument' = .ok found) ∧
        (∀ x, isAmong found x = isAmong items x) ∧
        ∀ (v : Validator) (w : World) (args : List Value) (x message message' : Value),
          (v.call w args).outcome = .ok x →
          ∃ u u', v.isIn values message = .ok u ∧ v.notIn values message' = .ok u' ∧
            (isAmong items x = .ok true ∧ (u.call w args).outcome = .ok x ∧
                (∃ e, (u'.call w args).outcome = .error e) ∨
              isAmong items x = .ok false ∧ (∃ e, (u.call w args).outcome = .error e) ∧
                (u'.call w args).outcome = .ok x)) ∧
    ∀ (v : Validator) (w : World) (args items : List Value) (x message : Value),
    x.isComparable = true →
      x.iterate = .ok items → (v.call w args).outcome = .ok x →
      ((∀ (i j : Nat) (y z : Value), i < j → items[i]? = some y → items[j]? = some z →
        y.identical z = .ok false) ∧
          ((v.extendPlain .unique message).call w args).outcome = .ok x ∨
        (∃ (i j : Nat) (y z : Value), i < j ∧ items[i]? = some y ∧ items[j]? = some z ∧
          y.identical z = .ok true) ∧
          ∃ e, ((v.extendPlain .unique message).call w args).outcome = .error e) := by
  refine ⟨⟨fun a => Value.identical_refl a.2, ?_, ?_⟩, fun a b ha =>
    Value.identical_ok ha b, ?_, ?_⟩
  · intro a b hab
    rwa [Value.identical_comm b.2 a.2]
  · intro a b c hab hbc
    exact Value.identical_trans a.2 b.2 hab hbc
  · intro values argument found hvalues h
    obtain ⟨items, hitems, hcomparable, hfirsts, hnull⟩ := candidates_eq_ok hvalues h
    refine ⟨items, hitems, hfirsts,
      candidates_list (fun y hy => hcomparable y (hfirsts.sublist.subset hy))
        hfirsts.distinct hnull,
      hfirsts.isAmong_eq hcomparable, ?_⟩
    intro v w args x message message' hx
    have hvalues := candidates_of_eq_ok h "values"
    obtain ⟨r, hr, -⟩ := Value.isAmong_ok hcomparable x
    have hfound : isAmong found x = .ok r := (hfirsts.isAmong_eq hcomparable x).trans hr
    have hin := check_outcome (c := .among found) hx rfl hfound
      (messageOr message "Expected value to be in $\x7bexpected\x7d, but got $\x7bgot\x7d")
        (.list found) "in"
    have hnotIn :=
      check_outcome (c := .notAmong found) (r := !r) hx rfl (by rw [Check.holds, hfound]; rfl)
      (messageOr message' "Expected value not to be in $\x7bexpected\x7d, but got $\x7bgot\x7d")
        (.list found) "notIn"
    refine ⟨_, _, by rw [isIn, hvalues]; rfl, by rw [notIn, hvalues]; rfl, ?_⟩
    cases r with
    | true => exact .inl ⟨hr, hin.1 rfl, hnotIn.2 rfl⟩
    | false => exact .inr ⟨hr, hin.2 rfl, hnotIn.1 rfl⟩
  · intro v w args items x message hcomparable hitems hx
    have hall := Value.iterate_comparable hcomparable hitems
    obtain ⟨r, hr, hriff⟩ := Value.allDistinct_ok (List.forall_mem_nil _) hall .nil
    have hunique :=
      check_outcome (c := .distinct) (r := r) hx rfl (by rw [Check.holds, hitems]; exact hr)
      (messageOr message "Expected array with unique elements") .missing "test"
    cases r with
    | true => exact .inl ⟨Value.distinct_iff.1 (hriff.1 rfl), hunique.1 rfl⟩
    | false =>
      refine .inr ⟨?_, hunique.2 rfl⟩
      by_contra hnone
      refine Bool.false_ne_true (hriff.2 (Value.distinct_iff.2 fun i j y z hij hy hz => ?_))
      obtain ⟨q, hq⟩ := Value.identical_ok (hall y (List.mem_of_getElem? hy)) z
      cases q with
      | false => exact hq
      | true => exact absurd ⟨i, j, y, z, hij, hy, hz, hq⟩ hnone

/-- One and the truth value are different candidates, but they are equal as items of lists. -/
theorem membership_of_lists :
    let values := Value.list [.int 1, .bool true, .list [.int 1], .list [.bool true], .int 1]
    let found := [Value.int 1, .bool true, .list [.int 1]]
    values.isComparable = true ∧ candidates values "values" = .ok found ∧
      ∃ items, values.iterate = .ok items ∧ Firsts items found ∧
        ∀ x, isAmong found x = isAmong items x := by
  intro values found
  have hvalues : values.isComparable = true := by decide +kernel
  have hnumber : (Value.int 1).identical (.int 1) = .ok true := by decide +kernel
  have hlists : (Value.list [.int 1]).identical (.list [.bool true]) = .ok true := by decide +kernel
  have hdiffer : (Value.int 1).identical (.bool true) = .ok false ∧
      (Value.int 1).identical (.list [.int 1]) = .ok false ∧
      (Value.int 1).identical (.list [.bool true]) = .ok false ∧
      (Value.bool true).identical (.list [.int 1]) = .ok false ∧
      (Value.bool true).identical (.list [.bool true]) = .ok false := by decide +kernel
  have hdistinct :
    values.distinct [.int 1, .bool true, .list [.int 1], .list [.bool true], .int 1] =
      .ok found := by
    simp [values, found, Value.distinct, Value.hasPlacedItems, Value.holdsReference,
      Value.someHoldsReference, Value.dropEqual, hnumber, hlists, hdiffer]
  have hfound : candidates values "values" = .ok found := by
    have hiterate :
      values.iterate = .ok [.int 1, .bool true, .list [.int 1], .list [.bool true], .int 1] := rfl
    simp only [candidates, values, hiterate, hdistinct]
    rfl
  obtain ⟨items, hitems, hfirsts, -, hsame, -⟩ :=
    membership.2.2.1 values "values" found hvalues hfound
  exact ⟨hvalues, hfound, items, hitems, hfirsts, hsame⟩

end Validator

end Attest
