import Attest.Pattern.Match

/-!
# Letters without regard to case

What the sets of a pattern hold where case is ignored, over all of Unicode. A letter is taken for
its small letter, and small letters with one capital are taken for each other, so that some letters
of ASCII have partners outside of it. The digits and the first six letters have none: no other
letter becomes one of them.

* `toNat_foldChar`: the small letters of other letters than those of ASCII come behind the first
  seven of ASCII.
* `holdsFolded_span`, `isLetterOf_iff`: the sets between the digits and the sixth small letter.
-/

namespace Attest

namespace Text

variable {c x : Char}

theorem toNat_toLower (c : Char) :
    c.toLower.toNat = if 65 ≤ c.toNat ∧ c.toNat ≤ 90 then c.toNat + 32 else c.toNat := by
  have hfirst : 'A'.val.toNat = 65 := rfl
  have hlast : 'Z'.val.toNat = 90 := rfl
  have hval : c.val.toNat = c.toNat := rfl
  unfold Char.toLower
  simp only [ge_iff_le, UInt32.le_iff_toNat_le, hfirst, hlast, hval]
  by_cases h : 65 ≤ c.toNat ∧ c.toNat ≤ 90
  · rw [dif_pos h, if_pos h]
    show (c.val + ('a'.val - 'A'.val)).toNat = c.toNat + 32
    rw [UInt32.toNat_add, hval]
    have hshift : ('a'.val - 'A'.val).toNat = 32 := rfl
    omega
  · rw [dif_neg h, if_neg h]

/-- What is no capital of ASCII stays. -/
theorem toLower_eq_self (h : c.toNat < 65 ∨ 90 < c.toNat) : c.toLower = c := by
  apply Char.toNat_inj.1
  rw [toNat_toLower, if_neg (by omega)]

/-- The last of the letters of which no other letter has one for its small letter. -/
def lastLone : Nat := 0x66

theorem foldChar_ascii (h : c.toNat < 128) : foldChar c = c.toLower := by
  rw [foldChar, lowerChar, if_pos h]
  rfl

theorem toNat_ofNat (n : Nat) : (Char.ofNat n).toNat = n ∨ (Char.ofNat n).toNat = 0 := by
  by_cases h : n.isValidChar
  · exact .inl (by rw [Char.ofNat, dif_pos h]; rfl)
  · exact .inr (by rw [Char.ofNat, dif_neg h]; rfl)

/-- The small letter of a letter outside ASCII is none of the first letters of ASCII, unless it is
no letter at all. -/
theorem toNat_foldChar (h : 128 ≤ c.toNat) :
    (foldChar c).toNat = 0 ∨ lastLone < (foldChar c).toNat := by
  -- the tables themselves are gone through: none of their images is a digit or one of the first
  -- small letters
  have hspans : ∀ span ∈ lowerSpans.toList, span.2.1 < 128 ∨
    (lastLone : Int) < span.1 + span.2.2.2 := by
    decide +kernel
  have hexpansions : ∀ e ∈ lowerExpansions.toList, ∃ code ∈ e.2.head?, lastLone < code := by
    decide +kernel
  have hneg : ¬ c.toNat < 128 := by omega
  rw [foldChar, lowerChar, if_neg hneg, mapCase]
  cases hfound : lowerExpansions.find? (·.1 == c.toNat) with
  | some e =>
    obtain ⟨code, hcode, hlone⟩ :=
      hexpansions e (Array.mem_toList_iff.2 (Array.mem_of_find?_eq_some hfound))
    obtain ⟨more, hmore⟩ : ∃ more, e.2 = code :: more := by
      cases himage : e.2 with
      | nil =>
        rw [himage] at hcode
        cases hcode
      | cons d more =>
        rw [himage] at hcode
        cases hcode
        exact ⟨more, rfl⟩
    simp only [hmore, List.map_cons, List.headD_cons]
    rcases toNat_ofNat code with hnat | hnat
    · exact .inr (by rwa [hnat])
    · exact .inl hnat
  | none =>
    simp only
    cases hoffset : spanOffset? lowerSpans c.toNat with
    | none =>
      simp only [List.headD_cons]
      exact .inr (by rw [lastLone]; omega)
    | some offset =>
      obtain ⟨⟨first, last, step, offset⟩, hspan, rfl⟩ := Option.map_eq_some_iff.1 hoffset
      have hmem := hspans _ (Array.mem_toList_iff.2 (Array.mem_of_find?_eq_some hspan))
      have hwithin := Array.find?_some hspan
      simp only [Bool.and_eq_true, decide_eq_true_eq] at hwithin
      simp only at hmem
      simp only [List.headD_cons]
      rcases toNat_ofNat (c.toNat + offset).toNat with hnat | hnat
      · exact .inr (by omega)
      · exact .inl hnat

end Text

namespace Pattern

open Text (lastLone)

variable {c x : Char} {first last code : Nat}

/-- No letter but itself counts as one with a digit or one of the first small letters. -/
theorem sharedCapitals_lone :
    ∀ e ∈ Text.sharedCapitals.toList, lastLone < e.1 ∧ ∀ code ∈ e.2, lastLone < code := by
  decide +kernel

theorem mem_sameLetters {z : Char} (h : z ∈ sameLetters false x) :
    z = x ∨ z.toNat = 0 ∨ lastLone < z.toNat := by
  rcases List.mem_cons.1 h with rfl | h
  · exact .inl rfl
  · obtain ⟨code, hcode, rfl⟩ := List.mem_map.1 h
    cases hfound : Text.sharedCapitals.find? (·.1 == x.toNat) with
    | none =>
      rw [hfound] at hcode
      cases hcode
    | some e =>
      rw [hfound] at hcode
      have hlone :=
        (sharedCapitals_lone e (Array.mem_toList_iff.2 (Array.mem_of_find?_eq_some hfound))).2 code
          hcode
      rcases Text.toNat_ofNat code with hnat | hnat
      · exact .inr (.inr (by rwa [hnat]))
      · exact .inr (.inl hnat)

/-- A span of digits or of the first small letters holds just its own characters. -/
theorem holdsFolded_span (hfirst : 0 < first) (hlast : last ≤ lastLone)
    (hsmall : last < 65 ∨ 90 < first) :
    (SetItem.span first last).holdsFolded false x = true ↔ first ≤ x.toNat ∧ x.toNat ≤ last := by
  have hlone : lastLone = 0x66 := rfl
  have hfold : ∀ y : Char, first ≤ y.toNat → y.toNat ≤ last → Text.foldChar y = y :=
    fun y hlow hhigh =>
    (Text.foldChar_ascii (by omega)).trans (Text.toLower_eq_self (by omega))
  have hbasic : isBasic last = true := by
    rw [isBasic, decide_eq_true_eq]
    omega
  simp only [SetItem.holdsFolded, Bool.false_eq_true, ↓reduceIte, hbasic, Bool.not_true,
    Bool.false_and, Bool.or_false, List.any_eq_true, Bool.and_eq_true, beq_iff_eq,
    decide_eq_true_eq, fold]
  constructor
  · rintro ⟨z, hz, y, -, ⟨hy, hlow, hhigh⟩, -⟩
    rw [hfold y hlow hhigh] at hy
    subst hy
    rcases mem_sameLetters hz with rfl | hzero | hbehind
    · exact ⟨hlow, hhigh⟩
    · omega
    · omega
  · rintro ⟨hlow, hhigh⟩
    have hx := hfold x hlow hhigh
    have hstands : x ∈ Text.foldedTo x := by
      simp only [Text.foldedTo, List.mem_filter, beq_iff_eq]
      exact ⟨List.mem_append_left _ List.mem_cons_self, hx⟩
    refine ⟨x, List.mem_cons_self, x, hstands, ⟨hx, hlow, hhigh⟩, ?_⟩
    rw [isBasic, decide_eq_true_eq]
    omega

/-- A digit or one of the first small letters holds just itself. -/
theorem isLetterOf_iff (hcode : code ≤ lastLone) (hsmall : code < 65 ∨ 90 < code) :
    isLetterOf false x code = true ↔ x.toNat = code := by
  have hlone : lastLone = 0x66 := rfl
  have hvalid : code.isValidChar := .inl (by omega)
  have hnat : (Char.ofNat code).toNat = code := by
    rw [Char.ofNat, dif_pos hvalid]
    rfl
  have hself : fold false (Char.ofNat code) = Char.ofNat code :=
    (Text.foldChar_ascii (by omega)).trans (Text.toLower_eq_self (by omega))
  have hshared : sameLetter false (Char.ofNat code) x = (Char.ofNat code == x) := by
    rw [sameLetter, ← Array.any_toList, List.any_eq_false.2 ?_, Bool.and_false, Bool.or_false]
    rintro ⟨small, others⟩ he
    have hbehind := (sharedCapitals_lone _ he).1
    have hne : (small == (Char.ofNat code).toNat) = false := by
      rw [beq_eq_false_iff_ne]
      omega
    simp [hne]
  rw [isLetterOf, hself, hshared, decide_eq_true hvalid, Bool.true_and, beq_iff_eq,
    ← Char.toNat_inj, hnat, eq_comm]

/-- What stands for a character where case is ignored. -/
theorem toNat_fold (c : Char) :
    65 ≤ c.toNat ∧ c.toNat ≤ 90 ∧ (fold false c).toNat = c.toNat + 32 ∨
    ¬ (65 ≤ c.toNat ∧ c.toNat ≤ 90) ∧ c.toNat < 128 ∧ (fold false c).toNat = c.toNat ∨
    128 ≤ c.toNat ∧ ((fold false c).toNat = 0 ∨ lastLone < (fold false c).toNat) := by
  have hfold : fold false c = Text.foldChar c := rfl
  rw [hfold]
  by_cases h : c.toNat < 128
  · rw [Text.foldChar_ascii h, Text.toNat_toLower]
    split <;> omega
  · exact .inr (.inr ⟨by omega, Text.toNat_foldChar (by omega)⟩)

end Pattern

end Attest
