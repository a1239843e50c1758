import Attest.Proofs.Folding
import Attest.Proofs.Integers
import Mathlib.Data.List.TakeWhile
import Mathlib.Data.Nat.Digits.Defs

/-!
# Numerals

What is read from the text of an integer. A numeral is one or more digits, perhaps behind a sign and
between blanks. It is read exactly as long as it has no more digits than an integer may have to be
read, zeros in front included. Beyond that it is no integer any more, but it is still a decimal
number, so that it is read as the float next to it.

* `Numeral`: the texts, with the integers that they denote.
* `Numeral.readInt_eq`, `Numeral.readFloat_eq`: how a numeral is read in either way.
* `Validator.numerals_read`: what becomes of numerals where integers or numbers are asked for.
-/

namespace Attest

open Number (digitLimit floatBound)

/-! ## Stripping both ends -/

/-- What is dropped from both ends of a list is what does not belong to its middle. -/
theorem Text.strip_eq {p : Char → Bool} {before body after : List Char}
    (hbefore : ∀ c ∈ before, p c = true) (hbody : ∀ c ∈ body, p c = false)
    (hafter : ∀ c ∈ after, p c = true) :
    (((before ++ (body ++ after)).dropWhile p).reverse.dropWhile p).reverse = body := by
  have hback : ∀ {l : List Char}, (∀ c ∈ l, p c = false) → l.dropWhile p = l := by
    intro l hl
    cases l with
    | nil => rfl
    | cons c l => exact List.dropWhile_cons_of_neg (by simp [hl c List.mem_cons_self])
  have hfront : (body ++ after).dropWhile p = if body = [] then [] else body ++ after := by
    cases body with
    | nil => simpa [List.dropWhile_eq_nil_iff] using hafter
    | cons c body => exact List.dropWhile_cons_of_neg (by simp [hbody c List.mem_cons_self])
  rw [List.dropWhile_append_of_pos hbefore, hfront]
  split
  · rename_i hnil
    rw [hnil]
    rfl
  · rw [List.reverse_append,
      List.dropWhile_append_of_pos fun c hc => hafter c (List.mem_reverse.1 hc),
      hback fun c hc => hbody c (List.mem_reverse.1 hc), List.reverse_reverse]

namespace Number

variable {c : Char} {digits : List Char}

theorem isDigit_iff : c.isDigit = true ↔ 48 ≤ c.toNat ∧ c.toNat ≤ 57 := by
  rw [Char.isDigit, Bool.and_eq_true, decide_eq_true_eq, decide_eq_true_eq, ge_iff_le,
    UInt32.le_iff_toNat_le, UInt32.le_iff_toNat_le]
  rfl

/-- A character of a numeral that is not a blank: a digit or a sign. -/
def IsInked (c : Char) : Prop := c.isDigit = true ∨ c = '+' ∨ c = '-'

theorem IsInked.bounds (h : IsInked c) : 43 ≤ c.toNat ∧ c.toNat ≤ 57 := by
  rcases h with h | rfl | rfl
  · have := isDigit_iff.1 h
    omega
  · decide
  · decide

theorem IsInked.not_blank (h : IsInked c) : Text.isBlank c = false := by
  have hbounds := h.bounds
  simp only [Text.isBlank, Bool.or_eq_false_iff, Bool.and_eq_false_iff, decide_eq_false_iff_not,
    beq_eq_false_iff_ne]
  omega

theorem IsInked.not_pad (h : IsInked c) : isPad c = false := by
  have hbounds := h.bounds
  have hspace : c ≠ ' ' := by
    rintro rfl
    exact absurd hbounds (by decide)
  simp only [isPad, Bool.or_eq_false_iff, Bool.and_eq_false_iff, decide_eq_false_iff_not,
    beq_eq_false_iff_ne]
  exact ⟨hspace, by omega⟩

theorem IsInked.ne_underscore (h : IsInked c) : c ≠ '_' := by
  rintro rfl
  exact absurd h.bounds (by decide)

/-! ## The parts of a reader -/

theorem plainChars_eq {s : List Char} (h : ∀ c ∈ s, IsInked c) : plainChars s = s := by
  have hplain : plainChars s = s.map fun c => c := List.map_congr_left fun c hc => if_pos (by
    have hbounds := (h c hc).bounds
    omega)
  exact hplain.trans (List.map_id' s)

theorem unpad_eq {s : List Char} (h : ∀ c ∈ s, IsInked c) : unpad s = s := by
  have hstrip : ((([] ++ (s ++ [])).dropWhile isPad).reverse.dropWhile isPad).reverse = s :=
    Text.strip_eq nofun (fun c hc => (h c hc).not_pad) nofun
  rwa [List.nil_append, List.append_nil] at hstrip

theorem dropUnderscores_eq :
    ∀ {s : List Char} {previous : Char}, previous ≠ '_' → (∀ c ∈ s, IsInked c) →
    dropUnderscores previous s = some s
  | [], previous, hprevious, _ => by rw [dropUnderscores, if_neg (by simpa using hprevious)]
  | c :: s, previous, hprevious, h => by
    have hc := (h c List.mem_cons_self).ne_underscore
    have hrest := dropUnderscores_eq hc fun d hd => h d (List.mem_cons_of_mem c hd)
    rw [dropUnderscores, if_neg (by simp [hprevious]), hrest]
    · rfl
    · exact fun he => hc he

theorem takeWhile_digits {p : Char → Bool} (h : ∀ c ∈ digits, p c = true) :
    digits.takeWhile p = digits ∧ digits.dropWhile p = [] :=
  ⟨List.takeWhile_eq_self_iff.2 h, List.dropWhile_eq_nil_iff.2 h⟩

theorem takeSign_digits (h : ∀ c ∈ digits, c.isDigit = true) :
    takeSign digits = (false, digits) := by
  cases digits with
  | nil => rfl
  | cons c digits =>
    have hc := isDigit_iff.1 (h c List.mem_cons_self)
    unfold takeSign
    split
    · rename_i heq
      obtain ⟨rfl, -⟩ := List.cons.inj heq
      exact absurd hc (by decide)
    · rename_i heq
      obtain ⟨rfl, -⟩ := List.cons.inj heq
      exact absurd hc (by decide)
    · rfl

/-- Reading digit by digit, from the left, comes to the sum of the digits by their places. -/
theorem digitsValue_eq (digits : List Char) :
    digitsValue digits = Nat.ofDigits 10 (digits.reverse.map fun c => c.toNat - 48) := by
  rw [digitsValue, Nat.ofDigits_eq_foldr, List.foldr_map, ← List.foldl_reverse,
    List.reverse_reverse]
  congr 1
  funext n d
  rw [Nat.add_comm]
  rfl

/-! ## The float next to a decimal integer -/

/-- An integer so long that no arithmetic is needed is out of range in any case. -/
theorem ofNatRatio_eq_infinity {negative : Bool} {n : Nat} (hlong : 1100 < n.log2) :
    ofNatRatio negative n 1 = infinity negative := by
  have hn : n ≠ 0 := by
    rintro rfl
    simp at hlong
  obtain ⟨k, hk⟩ := Nat.exists_eq_add_of_lt (show 52 < n.log2 by omega)
  have hexponent : lastBitExponent n 1 = .ofNat (k + 1) := by
    rw [lastBitExponent_one hn, hk, Int.ofNat_eq_natCast]
    omega
  have hlow : 2 ^ 52 ≤ roundDiv n (1 * Nat.pow 2 (k + 1)) := by
    have hpow : 1 * Nat.pow 2 (k + 1) = 2 ^ (k + 1) := Nat.one_mul _
    have hle := Nat.log2_self_le hn
    rw [hk, show 52 + k + 1 = k + 1 + 52 by omega, Nat.pow_add] at hle
    rw [hpow]
    exact le_roundDiv (Nat.two_pow_pos _) hle
  have hcast : Int.ofNat (k + 1) = ((k + 1 : Nat) : Int) := rfl
  have hfar : 971 < Int.ofNat (k + 1) := by omega
  have hfarther : 971 < Int.ofNat (k + 1) + 1 := by omega
  rw [ofNatRatio_eq_place hn hexponent hlow rfl]
  simp only [place, if_pos hfar, if_pos hfarther, ite_self]

theorem ofDecimal_eq (negative : Bool) (n : Nat) :
    ofDecimal negative n 0 = ofNatRatio negative n 1 := by
  have hone : n * Nat.pow 10 0 = n := Nat.mul_one n
  unfold ofDecimal
  by_cases hzero : n = 0
  · rw [hzero]
    rfl
  · simp only [beq_iff_eq, hzero, ↓reduceIte]
    split
    · exact (ofNatRatio_eq_infinity (by omega)).symm
    · split
      · omega
      · exact congrArg (ofNatRatio negative · 1) hone

/-- The float next to an integer is a number, and is infinite just if the integer is out of
range. -/
theorem ofNatRatio_isNan_isInfinite (negative : Bool) (n : Nat) :
    isNan (ofNatRatio negative n 1) = false ∧
      (isInfinite (ofNatRatio negative n 1) = true ↔ floatBound ≤ n) := by
  have hfields : ∀ {e m : Nat}, HasFields (ofNatRatio negative n 1) negative e m →
    (e = 2047 → m = 0) →
      isNan (ofNatRatio negative n 1) = false ∧
        (isInfinite (ofNatRatio negative n 1) = true ↔ e = 2047) := by
    intro e m h hnumber
    simp only [isNan, isInfinite, h.exponentField, h.mantissaField,
      Bool.and_eq_false_iff, Bool.and_eq_true, beq_eq_false_iff_ne, bne_eq_false_iff_eq, beq_iff_eq]
    omega
  have hsmall : ∀ {e m : Nat}, HasFields (ofNatRatio negative n 1) negative e m →
    e < 2047 → n < floatBound →
      isNan (ofNatRatio negative n 1) = false ∧
        (isInfinite (ofNatRatio negative n 1) = true ↔ floatBound ≤ n) := by
    intro e m h he hn
    obtain ⟨hnan, hinfinite⟩ := hfields h (by omega)
    exact ⟨hnan, hinfinite.trans (by omega)⟩
  by_cases hzero : n = 0
  · subst hzero
    have hword : HasFields (ofNatRatio negative 0 1) negative 0 0 := by
      have hzeros : ofNatRatio negative 0 1 = Float.ofBits
        (UInt64.ofNat (signPart negative + (0 * 2 ^ 52 + 0))) := rfl
      rw [hzeros]
      exact hasFields_ofBits rfl (by decide) (by decide) (by decide)
    exact hsmall hword (by decide) (lt_floatBound (by decide))
  · by_cases hlong : 52 ≤ n.log2
    · rcases @ofNatRatio_long negative n hlong with ⟨hless, e, m, -, he, h⟩ | ⟨hmore, h⟩
      · exact hsmall h he hless
      · obtain ⟨hnan, hinfinite⟩ := hfields h fun _ => rfl
        exact ⟨hnan, hinfinite.trans (iff_of_true rfl hmore)⟩
    · have hless : n < 2 ^ (n.log2 + 1) := Nat.lt_log2_self
      have hpower : 2 ^ (n.log2 + 1) ≤ 2 ^ 53 := Nat.pow_le_pow_right (by decide) (by omega)
      exact hsmall (ofNatRatio_short hzero (by omega)) (by omega)
        (lt_floatBound (Nat.lt_of_lt_of_le hless hpower))

end Number

/-! ## Numerals -/

/-- The sign in front of a numeral. -/
inductive NumeralSign where
  | none
  | plus
  | minus
  deriving DecidableEq, Repr

def NumeralSign.chars : NumeralSign → List Char
  | .none => []
  | .plus => ['+']
  | .minus => ['-']

/-- The text of an integer: one digit or more, perhaps behind a sign, perhaps between blanks. -/
structure Numeral where
  before : List Char
  sign : NumeralSign
  digits : List Char
  after : List Char
  before_isBlank : ∀ c ∈ before, Text.isBlank c = true
  digits_isDigit : ∀ c ∈ digits, c.isDigit = true
  digits_ne_nil : digits ≠ []
  after_isBlank : ∀ c ∈ after, Text.isBlank c = true

namespace Numeral

variable (n : Numeral)

/-- What stands between the blanks. -/
def ink : List Char := n.sign.chars ++ n.digits

def text : String := String.ofList (n.before ++ (n.ink ++ n.after))

def isNegative : Bool := n.sign == .minus

/-- The integer without its sign: the digits by their places, the last one being the units. -/
def magnitude : Nat := Nat.ofDigits 10 (n.digits.reverse.map fun c => c.toNat - 48)

/-- The integer that is denoted. -/
def value : Int := if n.isNegative then -(n.magnitude : Int) else n.magnitude

theorem natAbs_value : n.value.natAbs = n.magnitude := by
  rw [value]
  split
  · rw [Int.natAbs_neg, Int.natAbs_natCast]
  · exact Int.natAbs_natCast _

theorem ink_isInked : ∀ c ∈ n.ink, Number.IsInked c := by
  intro c hc
  rcases List.mem_append.1 hc with hc | hc
  · cases hsign : n.sign with
    | none =>
      rw [hsign] at hc
      cases hc
    | plus =>
      rw [hsign] at hc
      exact .inr (.inl (List.mem_singleton.1 hc))
    | minus =>
      rw [hsign] at hc
      exact .inr (.inr (List.mem_singleton.1 hc))
  · exact .inl (n.digits_isDigit c hc)

theorem takeSign_ink : Number.takeSign n.ink = (n.isNegative, n.digits) := by
  cases hsign : n.sign with
  | none =>
    rw [ink, isNegative, hsign]
    exact Number.takeSign_digits n.digits_isDigit
  | plus =>
    rw [ink, isNegative, hsign]
    rfl
  | minus =>
    rw [ink, isNegative, hsign]
    rfl

theorem trim_text : Text.trim n.text = String.ofList n.ink := by
  rw [Text.trim, Text.trimChars, text, String.toList_ofList]
  exact congrArg String.ofList
    (Text.strip_eq n.before_isBlank (fun c hc => (n.ink_isInked c hc).not_blank) n.after_isBlank)

theorem unpad_ink : Number.unpad (Number.plainChars (String.ofList n.ink).toList) = n.ink := by
  rw [String.toList_ofList, Number.plainChars_eq n.ink_isInked, Number.unpad_eq n.ink_isInked]

/-- As an integer, a numeral is read exactly, unless it has too many digits. -/
theorem readInt_eq : Number.readInt (String.ofList n.ink) =
    if n.digits.length ≤ digitLimit then .ok n.value else .error (.tooLong n.digits.length) := by
  obtain ⟨htake, hdrop⟩ := Number.takeWhile_digits (p := fun c => c.isDigit || c == '_')
    fun c hc => by rw [n.digits_isDigit c hc, Bool.true_or]
  have hunderscores := Number.dropUnderscores_eq (show ' ' ≠ '_' by decide)
    fun c hc => .inl (n.digits_isDigit c hc)
  have hempty : n.digits.isEmpty = false := List.isEmpty_eq_false_iff.2 n.digits_ne_nil
  rw [Number.readInt, n.unpad_ink, n.takeSign_ink]
  simp only [htake, hdrop, hunderscores, hempty, Bool.false_eq_true, ↓reduceIte,
    List.isEmpty_nil, Bool.not_true, Number.digitsValue_eq]
  by_cases hlength : n.digits.length ≤ digitLimit
  · rw [if_neg (by omega), if_pos hlength]
    rfl
  · rw [if_pos (by omega), if_neg hlength]

theorem readDecimal_eq : Number.readDecimal n.isNegative n.digits =
    some (Number.ofNatRatio n.isNegative n.magnitude 1) := by
  obtain ⟨htake, hdrop⟩ := Number.takeWhile_digits (p := Char.isDigit) n.digits_isDigit
  have hempty : n.digits.isEmpty = false := List.isEmpty_eq_false_iff.2 n.digits_ne_nil
  unfold Number.readDecimal
  simp only [htake, hdrop, hempty, Bool.false_and, Bool.false_eq_true, ↓reduceIte,
    List.append_nil, Option.map_some, Number.digitsValue_eq]
  exact congrArg some (Number.ofDecimal_eq n.isNegative n.magnitude)

/-- As a decimal number, a numeral is read as the float next to it, however many digits it has. -/
theorem readFloat_eq : Number.readFloat (String.ofList n.ink) =
    some (Number.ofNatRatio n.isNegative n.magnitude 1) := by
  have hunderscores := Number.dropUnderscores_eq (show ' ' ≠ '_' by decide) n.ink_isInked
  -- the names of infinities and of what is no number begin with a letter, which a numeral does not
  have hnamed : ∀ {name : String} {c : Char} {rest : List Char}, name.toList = c :: rest →
    57 < c.toNat →
      String.ofList (n.digits.map Char.toLower) ≠ name := by
    intro name c rest hname hc heq
    have hchars := congrArg String.toList heq
    obtain ⟨d, more, hdigits⟩ := List.exists_cons_of_ne_nil n.digits_ne_nil
    rw [String.toList_ofList, hname, hdigits, List.map_cons] at hchars
    have hd := Number.isDigit_iff.1 (n.digits_isDigit d (hdigits ▸ List.mem_cons_self))
    have hlower : d.toLower = d := Text.toLower_eq_self (by omega)
    obtain ⟨hhead, -⟩ := List.cons.inj hchars
    rw [← hhead, hlower] at hc
    omega
  rw [Number.readFloat, n.unpad_ink, hunderscores]
  simp only [n.takeSign_ink]
  split
  · rename_i heq
    exact absurd heq (hnamed rfl (by decide))
  · rename_i heq
    exact absurd heq (hnamed rfl (by decide))
  · rename_i heq
    exact absurd heq (hnamed rfl (by decide))
  · exact n.readDecimal_eq

/-! ## Integers and numbers from numerals -/

/-- What is made of a numeral where an integer is asked for. -/
theorem integer_accepts : Kind.integer.accepts? (.text n.text) =
    .ok (if n.digits.length ≤ digitLimit then some (.int n.value) else none) := by
  simp only [Kind.accepts?, Value.asFloat?, Value.asText?, Option.bind_some,
    Coercion.spelledInteger, n.trim_text, n.readInt_eq]
  by_cases hlength : n.digits.length ≤ digitLimit
  · rw [if_pos hlength, if_pos hlength]
  · rw [if_neg hlength, if_neg hlength]

/-- What is made of a numeral where a number is asked for, which is never nothing. -/
theorem number_accepts : Kind.number.accepts? (.text n.text) =
    .ok (some (if n.digits.length ≤ digitLimit then .int n.value
      else .float (Number.ofNatRatio n.isNegative n.magnitude 1))) := by
  obtain ⟨hnan, -⟩ := Number.ofNatRatio_isNan_isInfinite n.isNegative n.magnitude
  simp only [Kind.accepts?, Value.asFloat?, Value.foreignReal?, Option.isSome_none,
    Bool.false_eq_true, ↓reduceIte, Value.asText?, Option.bind_some, Coercion.spelledNumber,
    n.trim_text, n.readInt_eq, n.readFloat_eq]
  by_cases hlength : n.digits.length ≤ digitLimit
  · rw [if_pos hlength, if_pos hlength]
  · rw [if_neg hlength, if_neg hlength]
    simp only [hnan, Bool.false_eq_true, ↓reduceIte]

/-- The numeral of seven behind zeros. -/
def seven (zeros : Nat) : Numeral where
  before := []
  sign := .none
  digits := List.replicate zeros '0' ++ ['7']
  after := []
  before_isBlank := nofun
  digits_isDigit := by
    intro c hc
    rcases List.mem_append.1 hc with hc | hc
    · rw [List.eq_of_mem_replicate hc]
      rfl
    · rw [List.mem_singleton.1 hc]
      rfl
  digits_ne_nil := by simp
  after_isBlank := nofun

theorem length_seven (zeros : Nat) : (seven zeros).digits.length = zeros + 1 := by
  rw [seven, List.length_append, List.length_replicate, List.length_singleton]

/-- Zeros in front make no difference to what is denoted. -/
theorem magnitude_seven (zeros : Nat) : (seven zeros).magnitude = 7 := by
  have hdigits : (List.replicate zeros '0' ++ ['7']).reverse.map (fun c => c.toNat - 48) =
      [7] ++ List.replicate zeros 0 := by
    rw [List.reverse_append, List.reverse_replicate, List.map_append, List.map_replicate]
    rfl
  rw [magnitude, seven, hdigits, Nat.ofDigits_append_replicate_zero, Nat.ofDigits_singleton]

theorem value_seven (zeros : Nat) : (seven zeros).value = 7 := by
  rw [value, magnitude_seven]
  rfl

end Numeral

namespace Validator

variable {v x : Value} {kind : Kind}

theorem create_call (hkind : kind ≠ .any) (message v : Value) (w : World) :
    ((create kind message).call w [v]).outcome = kind.coerce message v := by
  have hstep : (create kind message).step = .coerce kind message := by
    cases kind with
    | any => exact absurd rfl hkind
    | _ => rfl
  rw [call, hstep, Step.program, Call.outcome_ofExcept]
  rfl

theorem create_accepts (hkind : kind ≠ .any) (h : kind.accepts? v = .ok (some x)) (w : World) :
    ((create kind .null).call w [v]).outcome = .ok x := by
  rw [create_call hkind, Kind.coerce, h]

/-- What a kind makes nothing of is the failure of a value of the wrong kind. -/
theorem create_refuses (hkind : kind ≠ .any) (h : kind.accepts? v = .ok none)
    (hv : v.isWritable = true) (w : World) :
    ∃ f, ((create kind .null).call w [v]).outcome = .error (.failure f) ∧
      f.notice.comparison = .text "type" := by
  have hcontext : (kind.misfit .null v).context.lookup "comparison" = some (.text "type") := by
    have hgot : (kind.misfit .null v).got = v := rfl
    simp only [Notice.Parts.context, Notice.Parts.unlessMissing, hgot]
    cases hmissing : v.isMissing <;> rfl
  have hcomparison :
    (Failure.worded (kind.misfit .null v).head []).notice.comparison = .text "type" :=
    congrArg (fun found : Option Value => found.getD .null) hcontext
  rw [create_call hkind, Kind.coerce, h]
  exact ⟨_, congrArg Except.error (Raised.fail_eq (kind.misfit_isTyped rfl)
    (kind.misfit_areWritable hv)), hcomparison⟩

/-- What becomes of a numeral. A sample of an integer in a schema is the validator of integers, and
a sample number is the validator of numbers. As long as a numeral has no more digits than may be
read, all of them take it for just the integer that it denotes. A longer one is refused as an
integer. As a number it is taken for the float next to it, which is the infinity if the integer is
out of the range of floats. -/
theorem numerals_read (n : Numeral) (mode : Mode) (message : Value)
    (settings : Settings) (w : World) :
    (Schema.compile (.type .integer) (.mode mode) (.list []) message settings).Makes
      (create .integer .null) ∧
    (Schema.compile (.int 0) (.mode mode) (.list []) message settings).Makes
      (create .number .null) ∧
    (n.digits.length ≤ digitLimit →
      ((create .integer .null).call w [.text n.text]).outcome = .ok (.int n.value) ∧
      ((create .number .null).call w [.text n.text]).outcome = .ok (.int n.value)) ∧
    (digitLimit < n.digits.length →
      (∃ f, ((create .integer .null).call w [.text n.text]).outcome = .error (.failure f) ∧
        f.notice.comparison = .text "type") ∧
      ∃ x, ((create .number .null).call w [.text n.text]).outcome = .ok (.float x) ∧
        x = Number.ofNatRatio n.isNegative n.magnitude 1 ∧ Number.isNan x = false ∧
        (Number.isInfinite x = true ↔ floatBound ≤ n.value.natAbs)) := by
  have hinteger := n.integer_accepts
  have hnumber := n.number_accepts
  have hkinds : Kind.integer ≠ .any ∧ Kind.number ≠ .any := by decide
  refine ⟨fun _ => rfl, fun _ => rfl, ?_, ?_⟩
  · intro hlength
    rw [if_pos hlength] at hinteger hnumber
    exact ⟨create_accepts hkinds.1 hinteger w, create_accepts hkinds.2 hnumber w⟩
  · intro hlength
    rw [if_neg (by omega)] at hinteger hnumber
    obtain ⟨hnan, hinfinite⟩ := Number.ofNatRatio_isNan_isInfinite n.isNegative n.magnitude
    refine ⟨create_refuses hkinds.1 hinteger (Value.isWritable_text _) w, _,
      create_accepts hkinds.2 hnumber w, rfl, hnan, ?_⟩
    rw [hinfinite, n.natAbs_value]

/-- A seven behind two zeros, and one behind as many zeros as digits may be read. -/
theorem numerals_read_seven :
    let w := World.ofRoutines [] (.ofDate ⟨2024, 1, 1⟩)
    let short := Value.text (Numeral.seven 2).text
    let long := Value.text (Numeral.seven digitLimit).text
    (Numeral.seven 2).digits.length ≤ digitLimit ∧
      digitLimit < (Numeral.seven digitLimit).digits.length ∧
    ((create .integer .null).call w [short]).outcome = .ok (.int 7) ∧
    ((create .number .null).call w [short]).outcome = .ok (.int 7) ∧
    (∃ f, ((create .integer .null).call w [long]).outcome = .error (.failure f)) ∧
    ((create .number .null).call w [long]).outcome = .ok
      (.float (Number.ofNatRatio false 7 1)) := by
  intro w short long
  have hshort : (Numeral.seven 2).digits.length ≤ digitLimit := by rw [Numeral.length_seven]; decide
  have hlong : digitLimit < (Numeral.seven digitLimit).digits.length := by
    rw [Numeral.length_seven]; omega
  obtain ⟨-, -, hreads, -⟩ := numerals_read (.seven 2) .strict .null .default w
  obtain ⟨-, -, -, hrounds⟩ := numerals_read (.seven digitLimit) .strict .null .default w
  obtain ⟨hinteger, hnumber⟩ := hreads hshort
  obtain ⟨⟨f, hf, -⟩, x, hx, hround, -⟩ := hrounds hlong
  rw [Numeral.value_seven] at hinteger hnumber
  rw [Numeral.magnitude_seven] at hround
  subst hround
  exact ⟨hshort, hlong, hinteger, hnumber, ⟨f, hf⟩, hx⟩

/-- A seven behind so many zeros is refused as an integer, and as a number it is no integer. -/
theorem long_seven_refused :
    let n := Numeral.seven digitLimit
    let w := World.ofRoutines [] (.ofDate ⟨2024, 1, 1⟩)
    n.value = 7 ∧
    (∃ f, ((create .integer .null).call w [.text n.text]).outcome = .error (.failure f)) ∧
    ((create .number .null).call w [.text n.text]).outcome ≠ .ok (.int 7) := by
  intro n w
  have hlong : ¬ n.digits.length ≤ digitLimit := by rw [Numeral.length_seven]; omega
  have hinteger := n.integer_accepts
  have hnumber := n.number_accepts
  rw [if_neg hlong] at hinteger hnumber
  obtain ⟨f, hf, -⟩ := create_refuses (by decide) hinteger (Value.isWritable_text _) w
  refine ⟨Numeral.value_seven _, ⟨f, hf⟩, ?_⟩
  rw [create_accepts (by decide) hnumber w]
  nofun

end Validator

end Attest
