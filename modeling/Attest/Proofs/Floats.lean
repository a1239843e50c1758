import Attest.Number.Binary
import Mathlib.Tactic.Ring

/-!
# Floats next to integers

Where an integer stands among the floats. A word is a sign, an exponent and a mantissa, and the
float that is made from it has these fields again. An integer below `2 ^ 53` is a float itself. A
longer one is rounded to fifty-three digits, which leaves an integer, and is out of range from the
middle between the largest float and the next power of two on.

* `HasFields`: a float by its sign, its exponent and its mantissa.
* `ofNatRatio_short`, `ofNatRatio_long`: the float next to an integer.
* `ofRatio_one`: it is an integer again, unless the integer is out of range.
-/

namespace Attest.Number

open Float.Model (Format UnpackedFloat)
open Float.Model.UnpackedFloat

theorem toBitVec_ofBitVec (b : BitVec 1) : (Sign.ofBitVec b).toBitVec = b := by
  revert b; decide

/-- The bits of a float from its fields -/
theorem packComponents_unpack (b : BitVec Format.binary64.numBits) :
    packComponents Format.binary64 (Sign.ofBitVec (unpackSign b)) (unpackExponent b)
      (unpackMantissa b) = b := by
  have hsign : unpackSign b = BitVec.extractLsb' 63 1 b := rfl
  have hexponent : unpackExponent b = BitVec.extractLsb' 52 11 b := rfl
  have hmantissa : unpackMantissa b = BitVec.extractLsb' 0 52 b := rfl
  have hupper : BitVec.extractLsb' 63 1 b ++ BitVec.extractLsb' 52 11 b =
    BitVec.extractLsb' 52 12 b :=
    BitVec.extractLsb'_append_extractLsb'_eq_extractLsb' rfl
  have hwhole : BitVec.extractLsb' 52 12 b ++ BitVec.extractLsb' 0 52 b =
    BitVec.extractLsb' 0 64 b :=
    BitVec.extractLsb'_append_extractLsb'_eq_extractLsb' rfl
  rw [packComponents, toBitVec_ofBitVec, hsign, hexponent, hmantissa, hupper]
  exact hwhole.trans BitVec.extractLsb'_eq_self

/-- A number of a given length in binary. -/
theorem log2_eq {n k : Nat} (hlow : 2 ^ k ≤ n) (hhigh : n < 2 ^ (k + 1)) : n.log2 = k :=
  (Nat.log2_eq_iff (by have := Nat.two_pow_pos k; omega)).2 ⟨hlow, hhigh⟩

/-- A finite float is packed by its exponent and its mantissa. A mantissa of less than fifty-three
digits has the exponent of zero. -/
theorem pack_finite (s : Sign) (m : Nat) (e : Int) (hm : 0 < m) :
    pack Format.binary64 (.finite s m e hm) =
      if 2 ^ 11 ≤ (e + (1023 : Nat) + (52 : Nat)).toNat + 1 then packedInfinity Format.binary64 s
      else if m.log2 + 1 = 53 then
        packComponents Format.binary64 s (BitVec.ofNat 11 (e + (1023 : Nat) + (52 : Nat)).toNat)
          (BitVec.ofNat 52 m)
      else packComponents Format.binary64 s 0#11 (BitVec.ofNat 52 m) := rfl

theorem pack_unpack {b : BitVec Format.binary64.numBits} (h : Format.binary64.Valid b) :
    pack Format.binary64 (unpack Format.binary64 b) = b := by
  have hb := packComponents_unpack b
  have hbias : Format.binary64.exponentBias = 1023 := rfl
  have hm : (unpackMantissa b).toNat < 2 ^ 52 := (unpackMantissa b).isLt
  have he : (unpackExponent b).toNat < 2 ^ 11 := (unpackExponent b).isLt
  unfold unpack
  dsimp only
  by_cases htop : unpackExponent b = -1#11
  · rw [if_pos htop]
    by_cases hzero : unpackMantissa b = 0#52
    · rw [if_pos hzero]
      rw [htop, hzero] at hb
      exact hb
    · rw [if_neg hzero]
      exact (h.eq_packedNaN htop hzero).symm
  rw [if_neg htop]
  have htop' : (unpackExponent b).toNat ≠ 2047 := fun h => htop (BitVec.eq_of_toNat_eq h)
  by_cases hlow : unpackExponent b = 0#11
  · rw [if_pos hlow]
    by_cases hzero : unpackMantissa b = 0#52
    · rw [dif_pos hzero]
      rw [hlow, hzero] at hb
      exact hb
    · have hshort : (unpackMantissa b).toNat.log2 + 1 ≠ 53 := by
        have hne : (unpackMantissa b).toNat ≠ 0 := fun h => hzero (BitVec.eq_of_toNat_eq h)
        have hlog := (Nat.log2_lt hne).2 hm
        omega
      have hzero' : (unpackExponent b).toNat = 0 := congrArg BitVec.toNat hlow
      rw [dif_neg hzero, pack_finite, if_neg (by omega), if_neg hshort, BitVec.ofNat_toNat,
        BitVec.setWidth_eq]
      rwa [hlow] at hb
  · rw [if_neg hlow, pack_finite]
    have hone : (1#1 ++ unpackMantissa b).toNat = 2 ^ 52 + (unpackMantissa b).toNat := by
      rw [BitVec.toNat_append, Nat.shiftLeft_eq]
      exact (Nat.two_pow_add_eq_or_of_lt hm 1).symm
    have hlog : (1#1 ++ unpackMantissa b).toNat.log2 + 1 = 53 := by
      rw [hone, log2_eq (k := 52) (by omega) (by omega)]
    have hexp : ((unpackExponent b).toNat - ((1023 : Nat) + (52 : Nat) : Int) + (1023 : Nat) +
        (52 : Nat)).toNat = (unpackExponent b).toNat := by omega
    have hman : BitVec.ofNat 52 (1#1 ++ unpackMantissa b).toNat = unpackMantissa b := by
      apply BitVec.eq_of_toNat_eq
      rw [hone, BitVec.toNat_ofNat, Nat.add_mod_left, Nat.mod_eq_of_lt hm]
    rw [hbias, hexp, if_neg (by omega), if_pos hlog, hman, BitVec.ofNat_toNat, BitVec.setWidth_eq]
    exact hb

/-- A word that is a float is the one that the float is made from. -/
theorem toBits_ofBits {b : UInt64} (h : Format.binary64.Valid b.toBitVec) :
    (Float.ofBits b).toBits = b := by
  show UInt64.ofBitVec (pack Format.binary64 (unpack Format.binary64 b.toBitVec)) = b
  rw [pack_unpack h]

theorem toNat_unpackExponent (b : BitVec Format.binary64.numBits) :
    (unpackExponent b).toNat = b.toNat / 2 ^ 52 % 2 ^ 11 := by
  have hexponent : unpackExponent b = BitVec.extractLsb 62 52 b := rfl
  rw [hexponent, BitVec.extractLsb_toNat, Nat.shiftRight_eq_div_pow]

theorem toNat_unpackMantissa (b : BitVec Format.binary64.numBits) :
    (unpackMantissa b).toNat = b.toNat % 2 ^ 52 := by
  have hmantissa : unpackMantissa b = BitVec.extractLsb 51 0 b := rfl
  rw [hmantissa, BitVec.extractLsb_toNat, Nat.shiftRight_zero]

/-! ## Fields -/

/-- A float by its fields. -/
structure HasFields (x : Float) (negative : Bool) (e m : Nat) : Prop where
  isNegative : isNegative x = negative
  exponentField : exponentField x = e
  mantissaField : mantissaField x = m

/-- The sign bit as a part of a word. -/
def signPart (negative : Bool) : Nat := if negative then 2 ^ 63 else 0

theorem signPart_cases (negative : Bool) :
    negative = false ∧ signPart negative = 0 ∨ negative = true ∧ signPart negative = 2 ^ 63 := by
  cases negative
  · exact .inl ⟨rfl, rfl⟩
  · exact .inr ⟨rfl, rfl⟩

theorem hasFields_ofBits {negative : Bool} {e m word : Nat}
    (hword : word = signPart negative + (e * 2 ^ 52 + m)) (he : e < 2 ^ 11) (hm : m < 2 ^ 52)
    (hnumber : e = 2047 → m = 0) :
    HasFields (Float.ofBits (UInt64.ofNat word)) negative e m := by
  have hsign := signPart_cases negative
  have hnat : (UInt64.ofNat word).toNat = word := by
    have hsize : UInt64.size = 2 ^ 64 := rfl
    exact UInt64.toNat_ofNat_of_lt' (by omega)
  have hvalid : Format.binary64.Valid (UInt64.ofNat word).toBitVec := by
    refine ⟨fun htop hne => absurd ?_ hne⟩
    have hexponent := toNat_unpackExponent (UInt64.ofNat word).toBitVec
    have hmantissa := toNat_unpackMantissa (UInt64.ofNat word).toBitVec
    have hfull : (@unpackExponent Format.binary64 (UInt64.ofNat word).toBitVec).toNat = 2047 := by
      rw [htop]
      rfl
    rw [hfull, UInt64.toNat_toBitVec, hnat] at hexponent
    rw [UInt64.toNat_toBitVec, hnat] at hmantissa
    apply BitVec.eq_of_toNat_eq
    rw [hmantissa]
    show word % 2 ^ 52 = 0
    omega
  have hbits : (Float.ofBits (UInt64.ofNat word)).toBits.toNat = word := by
    rw [toBits_ofBits hvalid, hnat]
  refine ⟨?_, ?_, ?_⟩
  · show (_ / 2 ^ 63 % 2 == 1) = negative
    rw [hbits, Bool.eq_iff_iff, beq_iff_eq]
    rcases hsign with ⟨rfl, hsign⟩ | ⟨rfl, hsign⟩
    · simp; omega
    · simp; omega
  · show _ / 2 ^ 52 % 2 ^ 11 = e
    rw [hbits]
    omega
  · show _ % 2 ^ 52 = m
    rw [hbits]
    omega

/-! ## Integers as floats -/

/-- The quotient is rounded to an odd number at most just if it is less than half a unit above
it. -/
theorem roundDiv_le_iff {num den q : Nat} (hden : 0 < den) (hodd : q % 2 = 1) :
    roundDiv num den ≤ q ↔ 2 * num < (2 * q + 1) * den := by
  have hdivision := Nat.div_add_mod num den
  have hrest := Nat.mod_lt num hden
  have hmul : (2 * q + 1) * den = 2 * (den * q) + den := by ring
  have hle : ∀ {a b : Nat}, a < b → den * a + den ≤ den * b := fun h => by
    rw [← Nat.mul_succ]
    exact Nat.mul_le_mul_left den h
  have hless : num / den < q → 2 * num < (2 * q + 1) * den := fun h => by
    have := hle h
    omega
  have hmore : q < num / den → (2 * q + 1) * den ≤ 2 * num := fun h => by
    have := hle h
    omega
  unfold roundDiv
  simp only
  rcases Nat.lt_trichotomy (num / den) q with hlt | heq | hgt
  · refine ⟨fun _ => hless hlt, fun _ => ?_⟩
    split
    · omega
    · split
      · omega
      · split <;> omega
  · rw [heq] at hdivision
    have heven : (num / den % 2 == 0) = false := by
      rw [heq, hodd]
      rfl
    simp only [heven, Bool.false_eq_true, ↓reduceIte]
    constructor
    · intro h
      split at h
      · omega
      · split at h <;> omega
    · intro h
      rw [if_pos (by omega)]
      omega
  · refine ⟨fun h => ?_, fun h => absurd (hmore hgt) (by omega)⟩
    split at h
    · omega
    · split at h
      · omega
      · split at h <;> omega

theorem le_roundDiv {num den q : Nat} (hden : 0 < den) (h : den * q ≤ num) :
    q ≤ roundDiv num den := by
  have hq : q ≤ num / den := (Nat.le_div_iff_mul_le hden).2 (by rwa [Nat.mul_comm])
  unfold roundDiv
  simp only
  split
  · exact hq
  · split
    · omega
    · split <;> omega

theorem roundDiv_le {num den q : Nat} (hden : 0 < den) (h : num < den * q) :
    roundDiv num den ≤ q := by
  have hq : num / den < q := (Nat.div_lt_iff_lt_mul hden).2 (by rwa [Nat.mul_comm])
  unfold roundDiv
  simp only
  split
  · omega
  · split
    · omega
    · split <;> omega

theorem roundDiv_one (n : Nat) : roundDiv n 1 = n := by
  simp [roundDiv, Nat.mod_one]

theorem lastBitExponent_one {n : Nat} (hn : n ≠ 0) : lastBitExponent n 1 = (n.log2 : Int) - 52 := by
  have hlow := Nat.log2_self_le hn
  have hone : Nat.log2 1 = 0 := by decide
  have hpow : ∀ k, Nat.pow 2 k = 2 ^ k := fun _ => rfl
  unfold lastBitExponent
  simp only [hone, hpow]
  by_cases hlong : 52 ≤ n.log2
  · obtain ⟨k, hk⟩ := Nat.exists_eq_add_of_le hlong
    have hguess : (n.log2 : Int) - (0 : Nat) - 52 = .ofNat k := by
      rw [hk]
      simp
    have hfits : 1 * 2 ^ (k + 52) ≤ n := by
      rw [Nat.one_mul, Nat.add_comm, ← hk]
      exact hlow
    rw [hguess]
    simp only [hfits, decide_true, ↓reduceIte]
    simp at *
    omega
  · obtain ⟨k, hk⟩ : ∃ k, n.log2 + (k + 1) = 52 := ⟨51 - n.log2, by omega⟩
    have hguess : (n.log2 : Int) - (0 : Nat) - 52 = .negSucc k := by
      omega
    have hfits : 1 * 2 ^ 52 ≤ n * 2 ^ (k + 1) := by
      rw [Nat.one_mul, ← hk, Nat.pow_add]
      exact Nat.mul_le_mul_right _ hlow
    rw [hguess]
    simp only [hfits, decide_true, ↓reduceIte]
    omega


/-- Half a unit in the last place of the largest floats. -/
def halfUnit : Nat := 2 ^ 970

/-- The first integer that is nearer to the power of two that no float can reach than to any float:
halfway between the largest float and that power. -/
def floatBound : Nat := (2 ^ 54 - 1) * halfUnit

-- the exponent is a variable, for no step below should compute the power
theorem halfUnit_eq : ∃ t, t = 970 ∧ halfUnit = 2 ^ t := ⟨_, rfl, by rw [halfUnit]⟩

theorem halfUnit_pos : 0 < halfUnit := by
  obtain ⟨t, -, hunit⟩ := halfUnit_eq
  rw [hunit]
  exact Nat.two_pow_pos t

theorem two_pow_le_halfUnit {k : Nat} (hk : k < 971) : 2 ^ k ≤ halfUnit := by
  obtain ⟨t, ht, hunit⟩ := halfUnit_eq
  rw [hunit]
  exact Nat.pow_le_pow_right (by decide) (by omega)

theorem two_pow_eq_unit {k : Nat} (hk : k = 971) : 2 ^ k = 2 * halfUnit := by
  obtain ⟨t, ht, hunit⟩ := halfUnit_eq
  rw [hunit, show k = t + 1 by omega, Nat.pow_succ, Nat.mul_comm]

theorem unit_le_two_pow {k : Nat} (hk : 971 < k) : 4 * halfUnit ≤ 2 ^ k := by
  obtain ⟨t, ht, hunit⟩ := halfUnit_eq
  have hpow : 2 ^ (2 + t) ≤ 2 ^ k := Nat.pow_le_pow_right (by decide) (by omega)
  rw [Nat.pow_add] at hpow
  rwa [hunit]

theorem lt_floatBound {n : Nat} (h : n < 2 ^ 53) : n < floatBound := by
  have hunit := halfUnit_pos
  unfold floatBound
  omega

theorem infinity_hasFields (negative : Bool) : HasFields (infinity negative) negative 2047 0 := by
  have hword : infinity negative = Float.ofBits
    (UInt64.ofNat (signPart negative + (2047 * 2 ^ 52 + 0))) := by
    cases negative <;> rfl
  rw [hword]
  exact hasFields_ofBits rfl (by decide) (by decide) fun _ => rfl

/-- The float of a mantissa of fifty-three bits whose last one has a given exponent, or the
infinity. -/
def place (negative : Bool) (m : Nat) (e : Int) : Float :=
  if 971 < e then infinity negative
  else Float.ofBits (UInt64.ofNat (signPart negative + ((e + 1075).toNat * 2 ^ 52 + (m - 2 ^ 52))))

theorem place_finite {negative : Bool} {m : Nat} {e : Int} (hlow : 2 ^ 52 ≤ m) (hhigh : m < 2 ^ 53)
    (he : -1074 ≤ e) (htop : e ≤ 971) :
    HasFields (place negative m e) negative (e + 1075).toNat (m - 2 ^ 52) := by
  rw [place, if_neg (by omega)]
  exact hasFields_ofBits rfl (by omega) (by omega) (by omega)

theorem place_infinite {negative : Bool} {m : Nat} {e : Int} (htop : 971 < e) :
    HasFields (place negative m e) negative 2047 0 := by
  rw [place, if_pos htop]
  exact infinity_hasFields negative

/-- A mantissa that is rounded up to the next power of two is a digit longer. -/
theorem ofNatRatio_eq_place {negative : Bool} {num den m : Nat} {e : Int} (hnum : num ≠ 0)
    (hexponent : lastBitExponent num den = e) (hlow : 2 ^ 52 ≤ m)
    (hrounded : (match e with
      | .ofNat k => roundDiv num (den * Nat.pow 2 k)
      | .negSucc k => roundDiv (num * Nat.pow 2 (k + 1)) den) = m) :
    ofNatRatio negative num den = if m = 2 ^ 53 then place negative (2 ^ 52)
      (e + 1) else place negative m e := by
  have hzero : (num == 0) = false := by simpa using hnum
  have hpow : ∀ k, Nat.pow 2 k = 2 ^ k := fun _ => rfl
  have hsign : (if negative = true then 2 ^ 63 else 0) = signPart negative := rfl
  unfold ofNatRatio
  simp only [hzero, hexponent, Bool.false_eq_true, ↓reduceIte]
  cases e <;>
  · simp only [hpow] at hrounded
    simp only [hpow, hrounded, hsign, beq_iff_eq]
    by_cases hwide : m = 2 ^ 53
    · simp only [hwide, ↓reduceIte, Nat.lt_irrefl]
      rfl
    · simp only [hwide, ↓reduceIte]
      rw [if_neg (show ¬m < 2 ^ 52 by omega)]
      rfl

/-- An integer of up to fifty-two binary digits behind the first one is a float. -/
theorem ofNatRatio_short {negative : Bool} {n : Nat} (hn : n ≠ 0) (hshort : n.log2 < 52) :
    HasFields (ofNatRatio negative n 1) negative (n.log2 + 1023)
      (n * 2 ^ (52 - n.log2) - 2 ^ 52) := by
  obtain ⟨k, hk⟩ : ∃ k, n.log2 + (k + 1) = 52 := ⟨51 - n.log2, by omega⟩
  have hlow : 2 ^ 52 ≤ n * 2 ^ (k + 1) := by
    rw [← hk, Nat.pow_add]
    exact Nat.mul_le_mul_right _ (Nat.log2_self_le hn)
  have hhigh : n * 2 ^ (k + 1) < 2 ^ 53 := by
    have hpow : (2 : Nat) ^ 53 = 2 ^ (n.log2 + 1) * 2 ^ (k + 1) := by
      rw [← Nat.pow_add]
      congr 1
      omega
    rw [hpow]
    exact Nat.mul_lt_mul_of_pos_right Nat.lt_log2_self (Nat.two_pow_pos _)
  have hexponent : lastBitExponent n 1 = .negSucc k := by
    rw [lastBitExponent_one hn]
    omega
  have hcode := Int.negSucc_eq k
  have hsub : 52 - n.log2 = k + 1 := by omega
  have hfield : (Int.negSucc k + 1075).toNat = n.log2 + 1023 := by omega
  rw [ofNatRatio_eq_place hn hexponent hlow (roundDiv_one _), if_neg (by omega), hsub, ← hfield]
  exact place_finite hlow hhigh (by omega) (by omega)

/-- A longer integer is rounded to a float, or to the infinity if it is too large. -/
theorem ofNatRatio_long {negative : Bool} {n : Nat} (hlong : 52 ≤ n.log2) :
    (n < floatBound ∧ ∃ e m, 1075 ≤ e ∧ e < 2047 ∧
      HasFields (ofNatRatio negative n 1) negative e m) ∨
      (floatBound ≤ n ∧ HasFields (ofNatRatio negative n 1) negative 2047 0) := by
  have hn : n ≠ 0 := by
    rintro rfl
    simp at hlong
  obtain ⟨k, hk⟩ := Nat.exists_eq_add_of_le hlong
  have hunit := Nat.two_pow_pos k
  have hhigh : n < 2 ^ 53 * 2 ^ k := by
    have hlt : n < 2 ^ (n.log2 + 1) := Nat.lt_log2_self
    rwa [hk, show 52 + k + 1 = 53 + k by omega, Nat.pow_add] at hlt
  have hlow : 2 ^ 52 * 2 ^ k ≤ n := by
    have hle := Nat.log2_self_le hn
    rwa [hk, Nat.pow_add] at hle
  have hexponent : lastBitExponent n 1 = .ofNat k := by
    rw [lastBitExponent_one hn, hk]
    simp
  have hden : roundDiv n (1 * Nat.pow 2 k) = roundDiv n (2 ^ k) :=
    congrArg (roundDiv n) (Nat.one_mul _)
  have hmlow : 2 ^ 52 ≤ roundDiv n (2 ^ k) := le_roundDiv hunit (by rwa [Nat.mul_comm])
  have hmhigh : roundDiv n (2 ^ k) ≤ 2 ^ 53 := roundDiv_le hunit (by rwa [Nat.mul_comm])
  have hwider := @roundDiv_le_iff n _ (2 ^ 53 - 1) hunit (by decide)
  rw [ofNatRatio_eq_place hn hexponent hmlow hden]
  generalize hm : roundDiv n (2 ^ k) = m at *
  have hcast : Int.ofNat k = (k : Int) := rfl
  unfold floatBound
  rcases Nat.lt_trichotomy k 971 with hk971 | hk971 | hk971
  · have hunits := two_pow_le_halfUnit hk971
    refine .inl ⟨by omega, ?_⟩
    split
    · exact ⟨_, _, by omega, by omega, place_finite (by decide) (by decide) (by omega) (by omega)⟩
    · exact ⟨_, _, by omega, by omega, place_finite hmlow (by omega) (by omega) (by omega)⟩
  · have hunits := two_pow_eq_unit hk971
    by_cases hwide : m = 2 ^ 53
    · rw [if_pos hwide]
      exact .inr ⟨by omega, place_infinite (by omega)⟩
    · rw [if_neg hwide]
      exact .inl ⟨by omega, _, _, by omega, by omega, place_finite hmlow (by omega)
        (by omega) (by omega)⟩
  · have hunits := unit_le_two_pow hk971
    refine .inr ⟨by omega, ?_⟩
    split
    · exact place_infinite (by omega)
    · exact place_infinite (by omega)

theorem isFinite_of_hasFields {x : Float} {negative : Bool} {e m : Nat}
    (h : HasFields x negative e m) :
    isFinite x = (e != 2047) := by
  rw [isFinite, h.exponentField]

/-- A float whose last mantissa bit is a unit or more is an integer. -/
theorem toInt?_isSome_of_le {x : Float} {negative : Bool} {e m : Nat} (h : HasFields x negative e m)
    (hlow : 1075 ≤ e) (htop : e < 2047) : (toInt? x).isSome := by
  obtain ⟨k, rfl⟩ := Nat.exists_eq_add_of_le hlow
  have hfinite : isFinite x = true := by
    rw [isFinite_of_hasFields h, bne_iff_ne]
    omega
  have hexponent : exponent x = .ofNat k := by
    rw [exponent, h.exponentField, if_neg (by simp), Int.ofNat_eq_natCast]
    omega
  have hone : ∀ a : Int, a % Int.pow 2 0 = 0 := Int.emod_one
  simp only [toInt?, toFraction, hfinite, hexponent, hone, beq_self_eq_true, ↓reduceIte,
    Option.isSome_some]

/-- A float with a fraction in its mantissa is an integer if that fraction is zero. -/
theorem toInt?_isSome_of_dvd {x : Float} {negative : Bool} {e m k : Nat}
    (h : HasFields x negative e m) (he : e ≠ 0) (hk : e + (k + 1) = 1075)
    (hwhole : 2 ^ (k + 1) ∣ 2 ^ 52 + m) : (toInt? x).isSome := by
  have hfinite : isFinite x = true := by
    rw [isFinite_of_hasFields h, bne_iff_ne]
    omega
  have hexponent : exponent x = .negSucc k := by
    rw [exponent, h.exponentField, if_neg (by simpa using he), Int.negSucc_eq]
    omega
  have hmantissa : mantissa x = 2 ^ 52 + m := by
    rw [mantissa, h.exponentField, if_neg (by simpa using he), h.mantissaField]
    rfl
  have hdvd : Int.pow 2 (k + 1) ∣ ((2 ^ 52 + m : Nat) : Int) := Int.natCast_dvd_natCast.2 hwhole
  have hrest : (if isNegative x then -((2 ^ 52 + m : Nat) : Int) else ((2 ^ 52 + m : Nat) : Int)) %
      Int.pow 2 (k + 1) = 0 := by
    split
    · exact Int.emod_eq_zero_of_dvd (Int.dvd_neg.2 hdvd)
    · exact Int.emod_eq_zero_of_dvd hdvd
  simp only [toInt?, toFraction, hfinite, hexponent, hmantissa, hrest, beq_self_eq_true, ↓reduceIte,
    Option.isSome_some]

theorem toInt?_isSome_of_zero {x : Float} {negative : Bool} (h : HasFields x negative 0 0) :
    (toInt? x).isSome := by
  have hfinite : isFinite x = true := isFinite_of_hasFields h
  have hexponent : exponent x = .negSucc 1073 := by
    rw [exponent, h.exponentField]
    rfl
  have hmantissa : mantissa x = 0 := by
    rw [mantissa, h.exponentField, h.mantissaField]
    rfl
  have hrest : (if isNegative x then -((0 : Nat) : Int) else ((0 : Nat) : Int)) = 0 := by
    split <;> rfl
  simp only [toInt?, toFraction, hfinite, hexponent, hmantissa, hrest, Int.zero_emod,
    beq_self_eq_true, ↓reduceIte, Option.isSome_some]

/-- The float next to an integer is an integer, or the integer is out of the range of floats. -/
theorem ofRatio_one (n : Int) :
    (n.natAbs < floatBound ∧ isFinite (ofRatio n 1) = true ∧ (toInt? (ofRatio n 1)).isSome) ∨
      (floatBound ≤ n.natAbs ∧ isFinite (ofRatio n 1) = false) := by
  by_cases hn : n.natAbs = 0
  · have hzero : HasFields (ofRatio n 1) false 0 0 := by
      rw [Int.natAbs_eq_zero.1 hn]
      exact hasFields_ofBits rfl (by decide) (by decide) (by decide)
    refine .inl ⟨lt_floatBound (by omega), ?_, toInt?_isSome_of_zero hzero⟩
    rw [isFinite_of_hasFields hzero]
    rfl
  by_cases hlong : 52 ≤ n.natAbs.log2
  · rcases @ofNatRatio_long (n < 0) _ hlong with ⟨hless, e, m, hlow, htop, hfields⟩ |
      ⟨hmore, hfields⟩
    · refine .inl ⟨hless, ?_, toInt?_isSome_of_le hfields hlow htop⟩
      rw [ofRatio, isFinite_of_hasFields hfields, bne_iff_ne]
      omega
    · refine .inr ⟨hmore, ?_⟩
      rw [ofRatio, isFinite_of_hasFields hfields]
      rfl
  · have hfields := @ofNatRatio_short (n < 0) _ hn (Nat.lt_of_not_le hlong)
    refine .inl ⟨?_, ?_, ?_⟩
    · have hless : n.natAbs < 2 ^ (n.natAbs.log2 + 1) := Nat.lt_log2_self
      have hpower : 2 ^ (n.natAbs.log2 + 1) ≤ 2 ^ 53 := Nat.pow_le_pow_right (by decide) (by omega)
      exact lt_floatBound (Nat.lt_of_lt_of_le hless hpower)
    · rw [ofRatio, isFinite_of_hasFields hfields, bne_iff_ne]
      omega
    · obtain ⟨k, hk⟩ : ∃ k, n.natAbs.log2 + (k + 1) = 52 := ⟨51 - n.natAbs.log2, by omega⟩
      have hsub : 52 - n.natAbs.log2 = k + 1 := by omega
      have hlow : 2 ^ 52 ≤ n.natAbs * 2 ^ (k + 1) := by
        rw [← hk, Nat.pow_add]
        exact Nat.mul_le_mul_right _ (Nat.log2_self_le hn)
      refine toInt?_isSome_of_dvd hfields (by omega) (k := k) (by omega) ?_
      rw [hsub, Nat.add_sub_cancel' hlow]
      exact Nat.dvd_mul_left _ _

end Attest.Number
