import Attest.Proofs.Matching
import Attest.Proofs.Numerals

/-!
# Addresses of four numbers

The texts in which the pattern of addresses is found: four numbers up to 255 between dots, without
needless zeros. A digit of a pattern is a digit of any script, and the pattern asks for one in some
places where it does not ask for one of a few characters, so that the last digit of a number may be
of another script.

* `Text.IsOctet`: the text of a number up to 255.
* `Text.IsAddress`, `Text.IsPlainAddress`: the form with digits of any script, and in ASCII.
* `quad_takes`, `iterated_quad`: the dots stand between the numbers.
* `search_ipv4`: the texts in which the pattern is found.
-/

namespace Attest

namespace Pattern

/-! ## Characters -/

theorem holds_one {code : Nat} {c : Char} :
    (CharSet.mk false [.one code] false false).holds c = true ↔ c.toNat = code := by
  simp [CharSet.holds, SetItem.holds]

theorem holds_span {first last : Nat} {c : Char} :
    (CharSet.mk false [.span first last] false false).holds c = true ↔ first ≤ c.toNat ∧
    c.toNat ≤ last := by
  simp [CharSet.holds, SetItem.holds]

theorem holds_digit {c : Char} :
    (CharSet.mk false [.named .digit false] false false).holds c = true ↔
    Text.isDigit c = true := by
  simp [CharSet.holds, SetItem.holds, CharClass.holds]

end Pattern

/-! ## Numbers up to 255 -/

namespace Text

variable {c d : Char} {v n : Nat} {l : List Char}

theorem digitValue?_lt (h : digitValue? c = some v) : v < 10 := by
  simp only [digitValue?] at h
  split at h
  · cases h
    omega
  · split at h
    · cases h
    · obtain ⟨start, hstart, rfl⟩ := Option.map_eq_some_iff.1 h
      have hblock := Array.find?_some hstart
      simp only [Bool.and_eq_true, decide_eq_true_eq] at hblock
      omega

theorem digitValue?_ascii_iff (hc : c.toNat < 128) :
    digitValue? c = some v ↔ c.toNat = 48 + v ∧ v < 10 := by
  simp only [digitValue?]
  split
  · simp only [Option.some.injEq]
    omega
  · constructor
    · rintro ⟨⟩
    · omega

theorem digitValue?_of_toNat (hc : c.toNat = 48 + v) (hv : v < 10) : digitValue? c = some v :=
  (digitValue?_ascii_iff (by omega)).2 ⟨hc, hv⟩

theorem isDigit_iff_exists : isDigit c = true ↔ ∃ v, digitValue? c = some v ∧ v < 10 := by
  rw [isDigit, Option.isSome_iff_exists]
  exact exists_congr fun v => ⟨fun h => ⟨h, digitValue?_lt h⟩, And.left⟩

/-- A text of the digits of a number. A digit of another script than ASCII stands only in the last
place of a number under 250, or in the middle of one from 100 to 199. -/
structure IsOctet (n : Nat) (l : List Char) : Prop where
  digits : l.map digitValue? = (Nat.toDigits 10 n).map digitValue?
  foreign : ∀ i c, l[i]? = some c → 128 ≤ c.toNat →
    n < 250 ∧ i + 1 = l.length ∨ 100 ≤ n ∧ n < 200 ∧ i = 1

/-- The values of the digits of a number up to 255. -/
theorem digits_octet (hn : n ≤ 255) : (Nat.toDigits 10 n).map digitValue? =
    if n < 10 then [some n] else if n < 100 then [some (n / 10), some (n % 10)]
    else [some (n / 100), some (n / 10 % 10), some (n % 10)] := by
  have hall : ∀ m < 256, (Nat.toDigits 10 m).map digitValue? =
      if m < 10 then [some m] else if m < 100 then [some (m / 10), some (m % 10)]
      else [some (m / 100), some (m / 10 % 10), some (m % 10)] := by decide +kernel
  exact hall n (by omega)

/-- A number up to 255 by its digits. -/
theorem isOctet_iff (hn : n ≤ 255) : IsOctet n l ↔
    n < 10 ∧ (∃ c, l = [c] ∧ digitValue? c = some n) ∨
    10 ≤ n ∧ n < 100 ∧ (∃ b c, l = [b, c] ∧ b.toNat < 128 ∧ digitValue? b = some (n / 10) ∧
      digitValue? c = some (n % 10)) ∨
    100 ≤ n ∧ ∃ a b c, l = [a, b, c] ∧ a.toNat < 128 ∧ (128 ≤ b.toNat → n < 200) ∧
    (128 ≤ c.toNat → n < 250) ∧
      digitValue? a = some (n / 100) ∧ digitValue? b = some (n / 10 % 10) ∧
      digitValue? c = some (n % 10) := by
  constructor
  · rintro ⟨hdigits, hforeign⟩
    rw [digits_octet hn] at hdigits
    split at hdigits
    · next hone =>
      simp only [List.map_eq_cons_iff, List.map_eq_nil_iff] at hdigits
      obtain ⟨c, _, rfl, hc, rfl⟩ := hdigits
      exact .inl ⟨hone, c, rfl, hc⟩
    · split at hdigits
      · next hone htwo =>
        simp only [List.map_eq_cons_iff, List.map_eq_nil_iff] at hdigits
        obtain ⟨b, _, rfl, hb, c, _, rfl, hc, rfl⟩ := hdigits
        have hfirst := hforeign 0 b rfl
        simp only [List.length_cons, List.length_nil] at hfirst
        exact .inr (.inl ⟨by omega, htwo, b, c, rfl, by omega, hb, hc⟩)
      · next hone htwo =>
        simp only [List.map_eq_cons_iff, List.map_eq_nil_iff] at hdigits
        obtain ⟨a, _, rfl, ha, b, _, rfl, hb, c, _, rfl, hc, rfl⟩ := hdigits
        have hfirst := hforeign 0 a rfl
        have hsecond := hforeign 1 b rfl
        have hthird := hforeign 2 c rfl
        simp only [List.length_cons, List.length_nil] at hfirst hsecond hthird
        exact .inr (.inr ⟨by omega, a, b, c, rfl, by omega, by omega, by omega, ha, hb, hc⟩)
  · rintro (⟨hone, c, rfl, hc⟩ | ⟨hmore, htwo, b, c, rfl, hascii, hb, hc⟩ |
      ⟨hthree, a, b, c, rfl, hascii, hsecond, hthird, ha, hb, hc⟩)
    · refine ⟨by rw [digits_octet hn, if_pos hone, List.map_singleton, hc],
        fun i d hd hbeyond => ?_⟩
      obtain ⟨hi, -⟩ := List.getElem?_eq_some_iff.1 hd
      simp only [List.length_singleton] at hi ⊢
      omega
    · refine ⟨?_, fun i d hd hbeyond => ?_⟩
      · rw [digits_octet hn, if_neg (by omega), if_pos htwo]
        simp only [List.map_cons, List.map_nil, hb, hc]
      · match i with
        | 0 =>
          cases hd
          omega
        | 1 => exact .inl ⟨by omega, rfl⟩
    · refine ⟨?_, fun i d hd hbeyond => ?_⟩
      · rw [digits_octet hn, if_neg (by omega), if_neg (by omega)]
        simp only [List.map_cons, List.map_nil, ha, hb, hc]
      · match i with
        | 0 =>
          cases hd
          omega
        | 1 =>
          cases hd
          exact .inr ⟨hthree, hsecond hbeyond, rfl⟩
        | 2 =>
          cases hd
          exact .inl ⟨hthird hbeyond, rfl⟩

/-- In ASCII, a text with the values of digits of ASCII is just these digits. -/
theorem eq_of_map_digitValue? :
    ∀ {l ds : List Char}, (∀ c ∈ l, c.toNat < 128) → (∀ d ∈ ds, d.isDigit = true) →
    l.map digitValue? = ds.map digitValue? → l = ds
  | [], [], _, _, _ => rfl
  | c :: l, d :: ds, hl, hds, h => by
    obtain ⟨hfirst, hrest⟩ := List.cons.inj h
    have hd := Number.isDigit_iff.1 (hds d List.mem_cons_self)
    have hvalue : digitValue? d = some (d.toNat - 48) := digitValue?_of_toNat (by omega) (by omega)
    have hc := (digitValue?_ascii_iff (hl c List.mem_cons_self)).1 (hfirst.trans hvalue)
    have hsame : c = d := Char.toNat_inj.1 (by omega)
    rw [hsame, eq_of_map_digitValue? (fun x hx => hl x (List.mem_cons_of_mem c hx))
      (fun x hx => hds x (List.mem_cons_of_mem d hx)) hrest]

/-- In ASCII, the text of a number is its digits. -/
theorem isOctet_ascii (hl : ∀ c ∈ l, c.toNat < 128) : IsOctet n l ↔ l = Nat.toDigits 10 n := by
  constructor
  · rintro ⟨hdigits, -⟩
    exact eq_of_map_digitValue? hl (fun d hd => Nat.isDigit_of_mem_toDigits (by decide)
      (by decide) hd) hdigits
  · rintro rfl
    exact ⟨rfl, fun i c hc hbeyond => absurd (hl c (List.mem_of_getElem? hc)) (by omega)⟩

/-- Four numbers up to 255 between dots, some of whose digits may be of any script. -/
def IsAddress (l : List Char) : Prop :=
  ∃ parts : List (List Char), parts.length = 4 ∧ (∀ part ∈ parts, ∃ n ≤ 255, IsOctet n part) ∧
    l = ['.'].intercalate parts

/-- Four numbers up to 255 in their digits, between dots. -/
def IsPlainAddress (l : List Char) : Prop :=
  ∃ numbers : List (Fin 256), numbers.length = 4 ∧
    l = ['.'].intercalate (numbers.map fun n : Fin 256 => Nat.toDigits 10 n)

theorem mem_intercalate {sep part : List Char} :
    ∀ {parts : List (List Char)}, part ∈ parts → c ∈ part →
    c ∈ sep.intercalate parts
  | [only], hpart, hc => by
    rw [List.intercalate_singleton, ← List.mem_singleton.1 hpart]
    exact hc
  | first :: second :: more, hpart, hc => by
    rw [List.intercalate_cons_cons, List.append_assoc, List.mem_append, List.mem_append]
    rcases List.mem_cons.1 hpart with rfl | hpart
    · exact .inl hc
    · exact .inr (.inr (mem_intercalate hpart hc))

theorem of_mem_intercalate {sep : List Char} :
    ∀ {parts : List (List Char)}, c ∈ sep.intercalate parts →
    c ∈ sep ∨ ∃ part ∈ parts, c ∈ part
  | [only], hc => by
    rw [List.intercalate_singleton] at hc
    exact .inr ⟨only, List.mem_cons_self, hc⟩
  | first :: second :: more, hc => by
    rw [List.intercalate_cons_cons, List.append_assoc, List.mem_append, List.mem_append] at hc
    rcases hc with hc | hc | hc
    · exact .inr ⟨first, List.mem_cons_self, hc⟩
    · exact .inl hc
    · exact (of_mem_intercalate hc).imp_right fun ⟨part, hpart, hc⟩ =>
        ⟨part, List.mem_cons_of_mem first hpart, hc⟩

/-- The characters of an address are digits of ASCII and dots. -/
theorem IsPlainAddress.plain {l : List Char} (h : IsPlainAddress l) :
    ∀ c ∈ l, c.isDigit = true ∨ c = '.' := by
  obtain ⟨numbers, -, rfl⟩ := h
  intro c hc
  rcases of_mem_intercalate hc with hdot | ⟨part, hpart, hc⟩
  · exact .inr (List.mem_singleton.1 hdot)
  · obtain ⟨n, -, rfl⟩ := List.mem_map.1 hpart
    exact .inl (Nat.isDigit_of_mem_toDigits (by decide) (by decide) hc)

/-- In ASCII, these are the addresses. -/
theorem isAddress_ascii (hl : ∀ c ∈ l, c.toNat < 128) : IsAddress l ↔ IsPlainAddress l := by
  constructor
  · rintro ⟨parts, hlength, hparts, rfl⟩
    have hnumbers : parts ∈ Set.range (List.map fun n : Fin 256 => Nat.toDigits 10 n) := by
      rw [Set.range_list_map]
      intro part hpart
      obtain ⟨n, hn, hoctet⟩ := hparts part hpart
      exact ⟨⟨n, by omega⟩,
        ((isOctet_ascii fun c hc => hl c (mem_intercalate hpart hc)).1 hoctet).symm⟩
    obtain ⟨numbers, rfl⟩ := hnumbers
    exact ⟨numbers, by simpa using hlength, rfl⟩
  · rintro ⟨numbers, hlength, rfl⟩
    refine ⟨numbers.map fun n : Fin 256 => Nat.toDigits 10 n, by simpa using hlength,
      fun part hpart => ?_, rfl⟩
    obtain ⟨n, -, rfl⟩ := List.mem_map.1 hpart
    exact ⟨n, by omega, (isOctet_ascii fun c hc => hl c (mem_intercalate hpart hc)).2 rfl⟩

end Text

namespace Pattern

/-! ## Four numbers between dots -/

/-- One of the numbers between dots, by its characters. -/
def IsNumber (l : List Char) : Prop :=
  (∃ a b c : Char, l = [a, b, c] ∧ a.toNat = 50 ∧ b.toNat = 53 ∧ 48 ≤ c.toNat ∧ c.toNat ≤ 53) ∨
  (∃ a b c : Char, l = [a, b, c] ∧ a.toNat = 50 ∧ (48 ≤ b.toNat ∧ b.toNat ≤ 52) ∧
    Text.isDigit c = true) ∨
  (∃ a b c : Char, l = [a, b, c] ∧ a.toNat = 49 ∧ Text.isDigit b = true ∧ Text.isDigit c = true) ∨
  (∃ b c : Char, l = [b, c] ∧ (49 ≤ b.toNat ∧ b.toNat ≤ 57) ∧ Text.isDigit c = true) ∨
  ∃ c : Char, l = [c] ∧ Text.isDigit c = true

variable {l : List Char}

theorem isNumber_iff : IsNumber l ↔ ∃ n ≤ 255, Text.IsOctet n l := by
  constructor
  · rintro (⟨a, b, c, rfl, ha, hb, hlow, hhigh⟩ | ⟨a, b, c, rfl, ha, hb, hc⟩ |
      ⟨a, b, c, rfl, ha, hb, hc⟩ |
      ⟨b, c, rfl, hb, hc⟩ | ⟨c, rfl, hc⟩)
    · refine ⟨250 + (c.toNat - 48), by omega, (Text.isOctet_iff (by omega)).2
        (.inr (.inr ⟨by omega, a, b, c, rfl, by omega, by omega, by omega, ?_, ?_, ?_⟩))⟩ <;>
        exact Text.digitValue?_of_toNat (by omega) (by omega)
    · obtain ⟨v, hv, hlt⟩ := Text.isDigit_iff_exists.1 hc
      have hrest : (10 * b.toNat + v + 200 - 480) % 10 = v := by omega
      refine ⟨10 * b.toNat + v + 200 - 480, by omega, (Text.isOctet_iff (by omega)).2
        (.inr (.inr ⟨by omega, a, b, c, rfl, by omega, by omega, by omega, ?_,
          ?_, by rw [hrest, hv]⟩))⟩ <;>
        exact Text.digitValue?_of_toNat (by omega) (by omega)
    · obtain ⟨u, hu, hult⟩ := Text.isDigit_iff_exists.1 hb
      obtain ⟨v, hv, hvlt⟩ := Text.isDigit_iff_exists.1 hc
      have hsecond : (100 + 10 * u + v) / 10 % 10 = u := by omega
      have hrest : (100 + 10 * u + v) % 10 = v := by omega
      exact ⟨100 + 10 * u + v, by omega, (Text.isOctet_iff (by omega)).2
        (.inr (.inr ⟨by omega, a, b, c, rfl, by omega, by omega, by omega, Text.digitValue?_of_toNat
          (by omega) (by omega), by rw [hsecond, hu],
        by rw [hrest, hv]⟩))⟩
    · obtain ⟨v, hv, hlt⟩ := Text.isDigit_iff_exists.1 hc
      have hrest : (10 * b.toNat + v - 480) % 10 = v := by omega
      exact ⟨10 * b.toNat + v - 480, by omega, (Text.isOctet_iff (by omega)).2
        (.inr (.inl ⟨by omega, by omega, b, c, rfl, by omega, Text.digitValue?_of_toNat (by omega)
          (by omega), by rw [hrest, hv]⟩))⟩
    · obtain ⟨v, hv, hlt⟩ := Text.isDigit_iff_exists.1 hc
      exact ⟨v, by omega, (Text.isOctet_iff (by omega)).2 (.inl ⟨hlt, c, rfl, hv⟩)⟩
  · rintro ⟨n, hn, hoctet⟩
    have hdigit {c : Char} {v : Nat} (hc : Text.digitValue? c = some v) : Text.isDigit c = true :=
      Text.isDigit_iff_exists.2 ⟨v, hc, Text.digitValue?_lt hc⟩
    rcases (Text.isOctet_iff hn).1 hoctet with ⟨-, c, rfl, hc⟩ |
      ⟨hmore, htwo, b, c, rfl, hascii, hb, hc⟩ |
      ⟨hthree, a, b, c, rfl, hascii, hsecond, hthird, ha, hb, hc⟩
    · exact .inr (.inr (.inr (.inr ⟨c, rfl, hdigit hc⟩)))
    · have hb' := (Text.digitValue?_ascii_iff hascii).1 hb
      exact .inr (.inr (.inr (.inl ⟨b, c, rfl, by omega, hdigit hc⟩)))
    · have ha' := (Text.digitValue?_ascii_iff hascii).1 ha
      -- from 200 on the second digit is of ASCII, and from 250 on the third one is, too
      by_cases hhundreds : n < 200
      · exact .inr (.inr (.inl ⟨a, b, c, rfl, by omega, hdigit hb, hdigit hc⟩))
      · have hb' := (Text.digitValue?_ascii_iff (by omega)).1 hb
        by_cases htop : n < 250
        · exact .inr (.inl ⟨a, b, c, rfl, by omega, by omega, hdigit hc⟩)
        · have hc' := (Text.digitValue?_ascii_iff (by omega)).1 hc
          exact .inl ⟨a, b, c, rfl, by omega, by omega, by omega, by omega⟩

/-! ## The pattern of addresses -/

/-- A node that takes one character. -/
def single (item : SetItem) : Node := .oneOf ⟨false, [item], false, false⟩

def lineEnd : Node := .anchor (.lineEnd false)

def numberNode : Node :=
  .capture 2 (.choice (.seq (single (.one 50)) (.seq (single (.one 53)) (single (.span 48 53))))
    (.seq (.capture 3 (.choice (.seq (single (.one 50)) (single (.span 48 52)))
      (.choice (.seq (single (.one 49)) (single (.named .digit false)))
        (.choice (single (.span 49 57)) .empty))))
      (single (.named .digit false))))

/-- A number, with a dot behind it unless it is the last one. -/
def quad : Node :=
  .capture 1
    (.seq numberNode (.capture 4 (.choice (.seq (single (.one 46)) (.ahead true lineEnd)) lineEnd)))

theorem ipv4_root : Validator.ipv4Pattern.root =
    .seq (.anchor .lineStart) (.seq (.repetition 4 (some 4) .greedy quad) lineEnd) := by
  decide +kernel

theorem numberNode_speaks : numberNode.Speaks IsNumber := by
  have hone (code : Nat) : (single (.one code)).Speaks _ := .oneOf fun _ => holds_one
  have hspan (first last : Nat) : (single (.span first last)).Speaks _ := .oneOf fun _ => holds_span
  have hdigit : (single (.named .digit false)).Speaks _ := .oneOf fun _ => holds_digit
  refine ((((hone 50).seq ((hone 53).seq (hspan 48 53))).choice
    ((((((hone 50).seq (hspan 48 52)).choice
    (((hone 49).seq hdigit).choice ((hspan 49 57).choice .empty))).capture 3).seq hdigit))).capture
      2).congr
    fun part => ?_
  constructor
  · rintro (⟨_, _, rfl, ⟨a, rfl, ha⟩, _, _, rfl, ⟨b, rfl, hb⟩, c, rfl, hc⟩ |
      ⟨_, _, rfl, ⟨_, _, rfl, ⟨a, rfl, ha⟩, b, rfl, hb⟩ | ⟨_, _, rfl, ⟨a, rfl, ha⟩, b, rfl,
        hb⟩ | ⟨b, rfl, hb⟩ | rfl, c, rfl, hc⟩)
    · exact .inl ⟨a, b, c, rfl, ha, hb, hc⟩
    · exact .inr (.inl ⟨a, b, c, rfl, ha, hb, hc⟩)
    · exact .inr (.inr (.inl ⟨a, b, c, rfl, ha, hb, hc⟩))
    · exact .inr (.inr (.inr (.inl ⟨b, c, rfl, hb, hc⟩)))
    · exact .inr (.inr (.inr (.inr ⟨c, rfl, hc⟩)))
  · rintro (⟨a, b, c, rfl, ha, hb, hc⟩ | ⟨a, b, c, rfl, ha, hb, hc⟩ | ⟨a, b, c, rfl, ha, hb, hc⟩ |
      ⟨b, c, rfl, hb, hc⟩ | ⟨c, rfl, hc⟩)
    · exact .inl ⟨[a], [b, c], rfl, ⟨a, rfl, ha⟩, [b], [c], rfl, ⟨b, rfl, hb⟩, c, rfl, hc⟩
    · exact .inr ⟨[a, b], [c], rfl, .inl ⟨[a], [b], rfl, ⟨a, rfl, ha⟩, b, rfl, hb⟩, c, rfl, hc⟩
    · exact .inr ⟨[a, b], [c], rfl, .inr (.inl ⟨[a], [b], rfl, ⟨a, rfl, ha⟩, b, rfl, hb⟩), c, rfl,
        hc⟩
    · exact .inr ⟨[b], [c], rfl, .inr (.inr (.inl ⟨b, rfl, hb⟩)), c, rfl, hc⟩
    · exact .inr ⟨[], [c], rfl, .inr (.inr (.inr rfl)), c, rfl, hc⟩

variable {done part rest : List Char}

theorem lineEnd_takes : lineEnd.Takes done part rest ↔ part = [] ∧ AtEnd rest := by
  simp only [lineEnd, Node.takes_anchor, holds_lineEnd]

/-- A number is the last one just if the text ends behind it. -/
theorem quad_takes : quad.Takes done part rest ↔
    (∃ l, part = l ++ ['.'] ∧ IsNumber l ∧ ¬ AtEnd rest) ∨ IsNumber part ∧ AtEnd rest := by
  have hdot : (single (.one 46)).Speaks fun part => part = ['.'] :=
    Node.Speaks.congr (.oneOf fun _ => holds_one) fun part => by
      constructor
      · rintro ⟨c, rfl, hc⟩
        rw [show c = '.' from Char.toNat_inj.1 hc]
      · rintro rfl
        exact ⟨'.', rfl, rfl⟩
  have hahead {done part rest : List Char} : (Node.ahead true lineEnd).Takes done part rest ↔
      part = [] ∧ ¬ AtEnd rest := by
    simp only [Node.takes_ahead, lineEnd_takes, Bool.true_eq_false, iff_false]
    refine and_congr_right fun _ => not_congr ⟨?_, fun hend => ⟨[], rest, rfl, rfl, hend⟩⟩
    rintro ⟨_, more, rfl, rfl, hend⟩
    exact hend
  have hdotted {done part rest : List Char} :
      (Node.seq (single (.one 46)) (.ahead true lineEnd)).Takes done part rest ↔ part = ['.'] ∧
        ¬ AtEnd rest := by
    simp only [hdot.seq_takes, hahead]
    constructor
    · rintro ⟨_, _, rfl, rfl, rfl, hrest⟩
      exact ⟨rfl, hrest⟩
    · rintro ⟨rfl, hrest⟩
      exact ⟨['.'], [], rfl, rfl, rfl, hrest⟩
  have hquad : quad.Takes done part rest ↔ ∃ l more, part = l ++ more ∧ IsNumber l ∧
      (more = ['.'] ∧ ¬ AtEnd rest ∨ more = [] ∧ AtEnd rest) := by
    show (Node.seq numberNode (.capture 4 _)).Takes done part rest ↔ _
    rw [numberNode_speaks.seq_takes]
    refine exists_congr fun l => exists_congr fun more => and_congr_right fun _ =>
      and_congr_right fun _ => ?_
    exact or_congr hdotted lineEnd_takes
  rw [hquad]
  constructor
  · rintro ⟨l, more, rfl, hl, ⟨rfl, hrest⟩ | ⟨rfl, hrest⟩⟩
    · exact .inl ⟨l, rfl, hl, hrest⟩
    · rw [List.append_nil]
      exact .inr ⟨hl, hrest⟩
  · rintro (⟨l, rfl, hl, hrest⟩ | ⟨hpart, hrest⟩)
    · exact ⟨l, ['.'], rfl, hl, .inl ⟨rfl, hrest⟩⟩
    · exact ⟨part, [], (List.append_nil part).symm, hpart, .inr ⟨rfl, hrest⟩⟩

/-- A number begins with a digit, so that a text that goes on with numbers is not at its end. -/
theorem IsNumber.not_atEnd (hl : IsNumber l) (rest : List Char) : ¬ AtEnd (l ++ rest) := by
  have hbreak : Text.isDigit '\n' = false := by decide
  rintro (hnil | hbroken)
  · obtain ⟨rfl, -⟩ := List.append_eq_nil_iff.1 hnil
    rcases hl with ⟨a, b, c, hl, -⟩ | ⟨a, b, c, hl, -⟩ | ⟨a, b, c, hl, -⟩ | ⟨b, c, hl, -⟩ |
      ⟨c, hl, -⟩ <;> cases hl
  · rcases hl with ⟨a, b, c, rfl, -⟩ | ⟨a, b, c, rfl, -⟩ | ⟨a, b, c, rfl, -⟩ | ⟨b, c, rfl, -⟩ |
      ⟨c, rfl, hc⟩ <;>
      cases hbroken
    rw [hbreak] at hc
    cases hc

theorem IsNumber.intercalate_not_atEnd (hl : IsNumber l) (others : List (List Char))
    (rest : List Char) :
    ¬ AtEnd (['.'].intercalate (l :: others) ++ rest) := by
  cases others with
  | nil =>
    rw [List.intercalate_singleton]
    exact hl.not_atEnd rest
  | cons next others =>
    rw [List.intercalate_cons_cons, List.append_assoc, List.append_assoc]
    exact hl.not_atEnd _

/-- The numbers up to the end of a text have dots between them. -/
theorem iterated_quad (hend : AtEnd rest) : ∀ (count : Nat) (done part : List Char),
    Iterated quad.Takes (count + 1) done part rest ↔ ∃ parts : List (List Char),
      parts.length = count + 1 ∧ (∀ l ∈ parts, IsNumber l) ∧ part = ['.'].intercalate parts
  | 0, done, part => by
    have hlast : Iterated quad.Takes 1 done part rest ↔ IsNumber part := by
      constructor
      · rintro ⟨first, _, rfl, hfirst, rfl⟩
        rcases quad_takes.1 hfirst with ⟨_, _, _, hrest⟩ | ⟨hnumber, -⟩
        · exact absurd hend hrest
        · rwa [List.append_nil]
      · exact fun hnumber => ⟨part, [], (List.append_nil part).symm,
          quad_takes.2 (.inr ⟨hnumber, hend⟩), rfl⟩
    rw [hlast]
    constructor
    · intro hnumber
      exact ⟨[part], rfl, by simpa using hnumber, List.intercalate_singleton.symm⟩
    · rintro ⟨parts, hlength, hparts, rfl⟩
      obtain ⟨l, rfl⟩ := List.length_eq_one_iff.1 hlength
      rw [List.intercalate_singleton]
      exact hparts l List.mem_cons_self
  | count + 1, done, part => by
    rw [Iterated]
    constructor
    · rintro ⟨first, _, rfl, hfirst, hmore⟩
      obtain ⟨parts, hlength, hparts, rfl⟩ := (iterated_quad hend count _ _).1 hmore
      obtain ⟨next, others, rfl⟩ := List.exists_cons_of_length_eq_add_one hlength
      -- behind the first number the text is not at its end, so that the number has a dot behind it
      have hgoes := (hparts next List.mem_cons_self).intercalate_not_atEnd others rest
      rcases quad_takes.1 hfirst with ⟨l, rfl, hl, -⟩ | ⟨-, hstops⟩
      · exact ⟨l :: next :: others, congrArg Nat.succ hlength, List.forall_mem_cons.2 ⟨hl, hparts⟩,
          List.intercalate_cons_cons.symm⟩
      · exact absurd hstops hgoes
    · rintro ⟨parts, hlength, hparts, rfl⟩
      obtain ⟨l, parts, rfl⟩ := List.exists_cons_of_length_eq_add_one hlength
      obtain ⟨next, others, rfl⟩ := List.exists_cons_of_length_eq_add_one (Nat.succ.inj hlength)
      obtain ⟨hl, hothers⟩ := List.forall_mem_cons.1 hparts
      have hgoes := (hothers next List.mem_cons_self).intercalate_not_atEnd others rest
      exact ⟨l ++ ['.'], ['.'].intercalate (next :: others), List.intercalate_cons_cons,
        quad_takes.2 (.inl ⟨l, rfl, hl, hgoes⟩),
        (iterated_quad hend count _ _).2 ⟨next :: others, Nat.succ.inj hlength, hothers, rfl⟩⟩

/-- The pattern of addresses is found in the texts of an address, with or without a line break
behind it. -/
theorem search_ipv4 (text : String) :
    Validator.ipv4Pattern.search text = true ↔ IsLine Text.IsAddress text := by
  rw [search_from_start ipv4_root rfl]
  refine exists_congr fun body => exists_congr fun tail => and_congr_right fun _ => ?_
  simp only [Node.Takes, lineEnd_takes]
  constructor
  · rintro ⟨_, _, rfl, hquads, rfl, hend⟩
    obtain ⟨parts, hlength, hparts, rfl⟩ := (iterated_quad hend 3 _ _).1 hquads
    rw [List.append_nil]
    exact ⟨hend, parts, hlength, fun l hl => isNumber_iff.1 (hparts l hl), rfl⟩
  · rintro ⟨hend, parts, hlength, hparts, rfl⟩
    have hquads :=
      (iterated_quad hend 3 [] _).2 ⟨parts, hlength, fun l hl => isNumber_iff.2 (hparts l hl), rfl⟩
    exact ⟨_, [], (List.append_nil _).symm, hquads, rfl, hend⟩

end Pattern

end Attest
