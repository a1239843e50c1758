import Attest.Value.Equality

/-!
# Keys

What can be a key of a map: a value that can be hashed and that is the same as itself. Equality with
such a value can be read in both directions, which is not so for sets with items that are the same.

* `isKey`: whether a value can be a key.
* `same_symm`: what is the same as a value that can be hashed, is so the other way round.
-/

namespace Attest

theorem Number.Fraction.compare_symm {f g : Number.Fraction} (h : f.compare g = .eq) :
    g.compare f = .eq :=
  Std.compare_eq_iff_eq.2 (Std.compare_eq_iff_eq.1 h).symm

theorem Number.Extended.compare?_symm {x y : Number.Extended} (h : x.compare? y = some .eq) :
    y.compare? x = some .eq := by
  cases x with
  | finite f =>
    cases y with
    | finite g => exact congrArg some (Fraction.compare_symm (Option.some.inj h))
    | _ => cases h
  | _ => cases y <;> first | exact h | cases h

theorem Calendar.compareClocks?_symm {a b : Int} {o p : Option Int}
    (h : compareClocks? a b o p = some .eq) : compareClocks? b a p o = some .eq := by
  cases o <;> cases p <;> first
    | exact congrArg some (Std.compare_eq_iff_eq.2
        (Std.compare_eq_iff_eq.1 (Option.some.inj h)).symm)
    | exact nomatch h

namespace Value

/-- Whether a value can be a key: it can be hashed, and it is found again. -/
def isKey (v : Value) : Bool := v.unhashable?.isNone && v.same v

theorem isOne_symm {a b : Value} (h : isOne a b = true) : isOne b a = true := by
  unfold isOne at h
  split at h
  · exact beq_iff_eq.2 (eq_of_beq h).symm
  · exact beq_iff_eq.2 (eq_of_beq h).symm
  · exact beq_iff_eq.2 (eq_of_beq h).symm
  · exact beq_iff_eq.2 (eq_of_beq h).symm
  · cases h

/-- What is neither a number nor a text is equal to itself alone, if it is an object of its own. -/
theorem sameAtom_of_isOne {a b : Value} (h : isOne a b = true) : sameAtom a b = true := by
  unfold isOne at h
  split at h
  · next i j =>
    obtain rfl : i = j := eq_of_beq h
    exact h
  · exact h
  · exact h
  · exact h
  · cases h

theorem sameAtom_symm {a b : Value} (h : sameAtom a b = true) : sameAtom b a = true := by
  unfold sameAtom at h
  split at h
  · next x y hx hy =>
    simp only [sameAtom, hx, hy, Bool.or_eq_true, beq_iff_eq] at h ⊢
    exact h.imp Number.Extended.compare?_symm isOne_symm
  · next hnumbers =>
    have hskip : ∀ x y, b.asNumber? = some x → a.asNumber? = some y → False :=
      fun x y hx hy => hnumbers y x hy hx
    split at h
    · next s t hs ht =>
      unfold sameAtom
      split
      · next x y hx hy => exact (hskip x y hx hy).elim
      · simp only [hs, ht, beq_iff_eq] at h ⊢
        exact h.symm
    · next htexts =>
      split at h
      · rfl
      · rfl
      · exact beq_iff_eq.2 (eq_of_beq h).symm
      · exact beq_iff_eq.2 (Calendar.compareClocks?_symm (eq_of_beq h))
      · exact beq_iff_eq.2 (eq_of_beq h).symm
      · exact beq_iff_eq.2 (Calendar.compareClocks?_symm (eq_of_beq h))
      · obtain ⟨hsource, hoptions⟩ := Bool.and_eq_true_iff.1 h
        exact Bool.and_eq_true_iff.2
          ⟨beq_iff_eq.2 (eq_of_beq hsource).symm, beq_iff_eq.2 (eq_of_beq hoptions).symm⟩
      · exact beq_iff_eq.2 (eq_of_beq h).symm
      · exact beq_iff_eq.2 (eq_of_beq h).symm
      · exact sameAtom_of_isOne (isOne_symm h)

mutual

theorem same_symm : ∀ {a b : Value}, b.unhashable? = none → a.same b = true → b.same a = true
  | a, .tuple ys, hb, h => by
    cases a with
    | tuple xs =>
      simp only [same] at h ⊢
      exact sameAll_symm hb h
    | _ => simp [same, sameAtom, asNumber?, asText?, isOne] at h
  | _, .list _, hb, _ | _, .set _, hb, _ | _, .map _, hb, _ => by simp [unhashable?] at hb
  | _, .missing, _, h | _, .null, _, h | _, .bool _, _, h | _, .int _, _, h | _, .float _, _, h
  | _, .nan _, _, h | _, .text _, _, h | _, .bytes _, _, h | _, .moment _, _, h | _, .date _, _, h
  | _, .time _, _, h | _, .pattern _, _, h | _, .mode _, _, h | _, .type _, _, h
  | _, .object _, _, h
  | _, .function _, _, h | _, .validator _ _ _, _, h | _, .up _, _, h => by
    simp only [same] at h ⊢
    exact sameAtom_symm h

theorem sameAll_symm : ∀ {xs ys : List Value}, unhashableAmong? ys = none → sameAll xs ys = true →
    sameAll ys xs = true
  | [], [], _, h => h
  | x :: xs, y :: ys, hys, h => by
    simp only [unhashableAmong?, Option.or_eq_none_iff] at hys
    simp only [sameAll, Bool.and_eq_true] at h ⊢
    exact ⟨same_symm hys.1 h.1, sameAll_symm hys.2 h.2⟩
  | [], _ :: _, _, h | _ :: _, [], _, h => by simp [sameAll] at h

end

end Value

end Attest
