import Attest.Proofs.Addresses

/-!
# The known forms of texts

Which texts the checks of two known forms accept. The end of a line is also in front of a line break
that ends the text, so that a text may have one behind the form, and a digit of a pattern is a digit
of any script. Apart from that the forms are what they should be: addresses of four numbers, and
five groups of hexadecimal digits between dashes, with marks for the version and the variant.

* `Text.IsUuid`: the form of identifiers.
* `search_uuid`: the texts in which the pattern of identifiers is found.
* `Validator.forms_checked`: what the checks accept.
-/

namespace Attest

namespace Pattern

/-! ## Characters without regard to case -/

/-- Hexadecimal digits are those of ASCII also where case is ignored. -/
theorem holds_hex {c : Char} :
    (CharSet.mk false [.span 48 57, .span 97 102] true false).holds c = true ↔ isHex c = true := by
  have hlone : Text.lastLone = 0x66 := rfl
  have hhex : isHex c = true ↔ 48 ≤ c.toNat ∧ c.toNat ≤ 57 ∨ 97 ≤ c.toNat ∧ c.toNat ≤ 102 ∨
      65 ≤ c.toNat ∧ c.toNat ≤ 70 := by
    simp only [isHex, Char.isDigit, ge_iff_le, Char.le_def, UInt32.le_iff_toNat_le,
      Bool.or_eq_true, Bool.and_eq_true, decide_eq_true_eq, or_assoc]
    rfl
  simp only [CharSet.holds, ↓reduceIte, List.any_cons, List.any_nil, Bool.or_false,
    Bool.bne_false, Bool.or_eq_true, holdsFolded_span (show 0 < 48 by decide)
      (show 57 ≤ Text.lastLone by decide) (.inl (by decide)),
    holdsFolded_span (show 0 < 97 by decide) (show 102 ≤ Text.lastLone by decide)
      (.inr (by decide)), hhex]
  have hfold := toNat_fold c
  omega

theorem holds_dash {c : Char} :
    (CharSet.mk false [.one 45] true false).holds c = true ↔ c = '-' := by
  have hlone : Text.lastLone = 0x66 := rfl
  have hdash : c = '-' ↔ c.toNat = 45 := Char.toNat_inj.symm
  simp only [CharSet.holds, ↓reduceIte, Bool.bne_false,
    isLetterOf_iff (show 45 ≤ Text.lastLone by decide) (.inl (by decide)), hdash]
  have hfold := toNat_fold c
  omega

theorem holds_version {c : Char} :
    (CharSet.mk false [.span 49 53] true false).holds c = true ↔ c ∈ ['1', '2', '3', '4', '5'] := by
  have hlone : Text.lastLone = 0x66 := rfl
  simp only [List.mem_cons, List.not_mem_nil, or_false, ← Char.toNat_inj, Char.reduceToNat,
    CharSet.holds, ↓reduceIte, List.any_cons, List.any_nil, Bool.or_false, Bool.bne_false,
    holdsFolded_span (show 0 < 49 by decide) (show 53 ≤ Text.lastLone by decide) (.inl (by decide))]
  have hfold := toNat_fold c
  omega

theorem holds_variant {c : Char} :
    (CharSet.mk false [.one 56, .one 57, .one 97, .one 98] true false).holds c = true ↔
      c ∈ ['8', '9', 'a', 'b', 'A', 'B'] := by
  have hlone : Text.lastLone = 0x66 := rfl
  have hbasic : isBasic 56 = true ∧ isBasic 57 = true ∧ isBasic 97 = true ∧ isBasic 98 = true := by
    decide
  simp only [CharSet.holds, ↓reduceIte, List.any_cons, List.any_nil, Bool.or_false,
    Bool.bne_false, Bool.or_eq_true, SetItem.holdsFolded, hbasic,
    isLetterOf_iff (show 56 ≤ Text.lastLone by decide) (.inl (by decide)),
    isLetterOf_iff (show 57 ≤ Text.lastLone by decide) (.inl (by decide)),
    isLetterOf_iff (show 97 ≤ Text.lastLone by decide) (.inr (by decide)),
    isLetterOf_iff (show 98 ≤ Text.lastLone by decide) (.inr (by decide)),
    List.mem_cons, List.not_mem_nil, or_false, ← Char.toNat_inj, Char.reduceToNat]
  have hfold := toNat_fold c
  omega

end Pattern

/-! ## Groups of hexadecimal digits -/

/-- As many hexadecimal digits. -/
def Text.IsGroup (count : Nat) (l : List Char) :
    Prop := l.length = count ∧ ∀ c ∈ l, Pattern.isHex c = true

instance (count : Nat) (l : List Char) : Decidable (Text.IsGroup count l) :=
  decidable_of_iff (l.length = count ∧ l.all Pattern.isHex = true)
    (by rw [Text.IsGroup, List.all_eq_true])

/-- Five groups of hexadecimal digits between dashes, the third of which begins with a version and
the fourth one with a variant. -/
def Text.IsUuid (l : List Char) : Prop :=
  ∃ a b c d e version variant, l = ['-'].intercalate [a, b, version :: c, variant :: d, e] ∧
    IsGroup 8 a ∧ IsGroup 4 b ∧ IsGroup 3 c ∧ IsGroup 3 d ∧ IsGroup 12 e ∧
    version ∈ ['1', '2', '3', '4', '5'] ∧ variant ∈ ['8', '9', 'a', 'b', 'A', 'B']

namespace Pattern

/-- A node that takes one character without regard to case. -/
def folded (items : List SetItem) : Node := .oneOf ⟨false, items, true, false⟩

def hexNode (count : Nat) :
    Node := .repetition count (some count) .greedy (folded [.span 48 57, .span 97 102])

def dashNode : Node := folded [.one 45]

def versionNode : Node := folded [.span 49 53]

def variantNode : Node := folded [.one 56, .one 57, .one 97, .one 98]

theorem uuid_root : Validator.uuidPattern.root =
    .seq (.anchor .lineStart)
      (.seq (hexNode 8) (.seq dashNode (.seq (hexNode 4) (.seq dashNode (.seq versionNode
      (.seq (hexNode 3)
        (.seq dashNode (.seq variantNode (.seq (hexNode 3) (.seq dashNode (.seq (hexNode 12)
        lineEnd))))))))))) := by decide +kernel

theorem hexNode_speaks (count : Nat) : (hexNode count).Speaks (Text.IsGroup count) :=
  .repetition (.oneOf fun _ => holds_hex) count (some count) .greedy

theorem dashNode_speaks : dashNode.Speaks fun part => part = ['-'] :=
  Node.Speaks.congr (.oneOf fun _ => holds_dash) fun _ =>
    ⟨fun ⟨_, hpart, hc⟩ => hc ▸ hpart, fun hpart => ⟨'-', hpart, rfl⟩⟩

theorem versionNode_speaks :
    versionNode.Speaks fun part => ∃ c, part = [c] ∧ c ∈ ['1', '2', '3', '4', '5'] :=
  .oneOf fun _ => holds_version

theorem variantNode_speaks :
    variantNode.Speaks fun part => ∃ c, part = [c] ∧ c ∈ ['8', '9', 'a', 'b', 'A', 'B'] :=
  .oneOf fun _ => holds_variant

/-- The pattern of identifiers is found in an identifier, with or without a line break behind it. -/
theorem search_uuid (text : String) :
    Validator.uuidPattern.search text = true ↔ IsLine Text.IsUuid text := by
  rw [search_from_start uuid_root rfl]
  refine exists_congr fun body => exists_congr fun tail => and_congr_right fun _ => ?_
  simp only [(hexNode_speaks _).seq_takes, dashNode_speaks.seq_takes, versionNode_speaks.seq_takes,
    variantNode_speaks.seq_takes, lineEnd_takes]
  constructor
  · rintro ⟨a, _, rfl, ha, _, _, rfl, rfl, b, _, rfl, hb, _, _, rfl, rfl, _, _, rfl,
      ⟨version, rfl, hversion⟩, c, _, rfl, hc, _, _, rfl, rfl, _, _, rfl, ⟨variant, rfl, hvariant⟩,
        d, _, rfl, hd, _, _, rfl, rfl,
      e, _, rfl, he, rfl, hend⟩
    refine ⟨hend, a, b, c, d, e, version, variant, ?_, ha, hb, hc, hd, he, hversion, hvariant⟩
    simp only [List.intercalate_cons_cons, List.intercalate_singleton,
      List.append_assoc, List.append_nil, List.cons_append, List.nil_append]
  · rintro ⟨hend, a, b, c, d, e, version, variant, rfl, ha, hb, hc, hd, he, hversion, hvariant⟩
    refine ⟨a, _, ?_, ha, ['-'], _, rfl, rfl, b, _, rfl, hb, ['-'], _, rfl, rfl, [version], _, rfl,
      ⟨version, rfl, hversion⟩, c, _, rfl, hc, ['-'], _, rfl, rfl, [variant], _, rfl,
        ⟨variant, rfl, hvariant⟩,
      d, _, rfl, hd, ['-'], _, rfl, rfl, e, [], rfl, he, rfl, hend⟩
    simp only [List.intercalate_cons_cons, List.intercalate_singleton,
      List.append_assoc, List.append_nil, List.cons_append, List.nil_append]

end Pattern

/-! ## Checks -/

namespace Text

theorem IsUuid.length_eq {l : List Char} (h : IsUuid l) : l.length = 36 := by
  obtain ⟨a, b, c, d, e, version, variant, rfl, ⟨ha, -⟩, ⟨hb, -⟩, ⟨hc, -⟩, ⟨hd, -⟩, ⟨he, -⟩, -⟩ := h
  simp only [List.intercalate_cons_cons, List.intercalate_singleton,
    List.length_append, List.length_cons, List.length_nil, ha, hb, hc, hd, he]

end Text

namespace Validator

/-- A validator answers a value just if something holds, and otherwise it fails. -/
def AcceptsJust (v : Validator) (x : Value) (w : World) (p : Prop) : Prop :=
  p ∧ (v.call w [x]).outcome = .ok x ∨ ¬ p ∧ ∃ f, (v.call w [x]).outcome = .error (.failure f)

theorem AcceptsJust.congr {v : Validator} {x : Value} {w : World} {p q : Prop}
    (h : v.AcceptsJust x w p) (hpq : p ↔ q) : v.AcceptsJust x w q := by
  rwa [AcceptsJust, ← hpq]

theorem AcceptsJust.accepts {v : Validator} {x : Value} {w : World} {p : Prop}
    (h : v.AcceptsJust x w p) (hp : p) :
    (v.call w [x]).outcome = .ok x := (h.resolve_right fun hnot => hnot.1 hp).2

theorem AcceptsJust.refuses {v : Validator} {x : Value} {w : World} {p : Prop}
    (h : v.AcceptsJust x w p) (hp : ¬ p) : ∃ f, (v.call w [x]).outcome = .error (.failure f) :=
  (h.resolve_left fun hyes => hp hyes.1).2

/-- The patterns of this library are written as texts. -/
theorem knownPattern_source (source : String) (ignoreCase : Bool) :
    (knownPattern source ignoreCase).source = .text source := by
  unfold knownPattern
  cases h : Pattern.compile source ignoreCase with
  | error e => rfl
  | ok p =>
    simp only [Pattern.compile, Attempt.bind_eq_ok] at h
    obtain ⟨_, -, h⟩ := h
    cases h
    rfl

/-- What the check of a form accepts is what its pattern is found in. -/
theorem form_checked {p : Pattern} {source : String}
    (hp : p.source = .text source) (message : Value) (name s : String) (w : World) :
    ((create .string .null).form p message name).AcceptsJust (.text s) w (p.search s = true) := by
  have hx : ((create .string .null).call w [.text s]).outcome = .ok (.text s) := rfl
  have hholds : (Check.hasMatch p).holds w.now (.text s) = .ok (p.search s) := by
    simp only [Check.holds, Value.matchesPattern, hp, Value.asText?]
  by_cases hfound : p.search s = true
  · rw [hfound] at hholds
    exact .inl ⟨hfound, check_accepts (c := .hasMatch p) hx rfl hholds _ _ _⟩
  · rw [Bool.eq_false_of_not_eq_true hfound] at hholds
    exact .inr ⟨hfound, check_refuses (c := .hasMatch p) hx rfl
      (Value.isWritable_text s) hholds _ _ _⟩

/-- The validators of texts of the two forms. -/
def addressForm : Validator := (create .string .null).form ipv4Pattern .null "IPv4 address"

def uuidForm : Validator := (create .string .null).form uuidPattern .null "UUID"

theorem addressForm_makes :
    ((create .string .null).extend .ipv4 [] none).Makes addressForm := fun _ => rfl

theorem uuidForm_makes :
    ((create .string .null).extend .uuid [] none).Makes uuidForm := fun _ => rfl

theorem addressForm_accepts (s : String) (w : World) :
    addressForm.AcceptsJust (.text s) w (Pattern.IsLine Text.IsAddress s) :=
  (form_checked (knownPattern_source _ _) .null "IPv4 address" s w).congr (Pattern.search_ipv4 s)

theorem uuidForm_accepts (s : String) (w : World) :
    uuidForm.AcceptsJust (.text s) w (Pattern.IsLine Text.IsUuid s) :=
  (form_checked (knownPattern_source _ _) .null "UUID" s w).congr (Pattern.search_uuid s)

/-- What the checks of the two forms accept: an address some of whose digits may be of any script,
and an identifier, each with or without a line break behind it. Of the texts that do not end in a
line break, the identifiers are just those that they should be, and of the texts of ASCII among
these the addresses are, too. -/
theorem forms_checked (s : String) (w : World) : ∃ ipv4 uuid,
    ((create .string .null).extend .ipv4 [] none).Makes ipv4 ∧
    ((create .string .null).extend .uuid [] none).Makes uuid ∧
    ipv4.AcceptsJust (.text s) w (Pattern.IsLine Text.IsAddress s) ∧
    uuid.AcceptsJust (.text s) w (Pattern.IsLine Text.IsUuid s) ∧
    (s.toList.getLast? ≠ some '\n' →
      uuid.AcceptsJust (.text s) w (Text.IsUuid s.toList) ∧
      ((∀ c ∈ s.toList, c.toNat < 128) → ipv4.AcceptsJust (.text s) w
        (Text.IsPlainAddress s.toList))) := by
  have hipv4 := addressForm_accepts s w
  have huuid := uuidForm_accepts s w
  refine ⟨addressForm, uuidForm, addressForm_makes, uuidForm_makes, hipv4, huuid, fun hline => ?_⟩
  refine ⟨huuid.congr (Pattern.isLine_iff hline), fun hascii => ?_⟩
  exact hipv4.congr ((Pattern.isLine_iff hline).trans (Text.isAddress_ascii hascii))

theorem sample_isUuid : Text.IsUuid "123e4567-e89b-12d3-a456-426614174000".toList :=
  ⟨"123e4567".toList, "e89b".toList, "2d3".toList, "456".toList, "426614174000".toList, '1',
    'a', by decide +kernel, by decide +kernel, by decide +kernel, by decide +kernel,
    by decide +kernel, by decide +kernel, by decide,
    by decide⟩

/-- An address and an identifier are accepted, and an address is no identifier. -/
theorem forms_checked_samples :
    let w := World.ofRoutines [] (.ofDate ⟨2024, 1, 1⟩)
    let address := "192.168.0.1"
    let uuid := "123e4567-e89b-12d3-a456-426614174000"
    address.toList.getLast? ≠ some '\n' ∧ (∀ c ∈ address.toList, c.toNat < 128) ∧
    uuid.toList.getLast? ≠ some '\n' ∧
    (∃ ipv4 v, ((create .string .null).extend .ipv4 [] none).Makes ipv4 ∧
      ((create .string .null).extend .uuid [] none).Makes v ∧
      (ipv4.call w [.text address]).outcome = .ok (.text address) ∧
      ∃ f, (v.call w [.text address]).outcome = .error (.failure f)) ∧
    ∃ v, ((create .string .null).extend .uuid [] none).Makes v ∧
      (v.call w [.text uuid]).outcome = .ok (.text uuid) := by
  intro w address uuid
  have haddress : address.toList.getLast? ≠ some '\n' := by decide +kernel
  have hascii : ∀ c ∈ address.toList, c.toNat < 128 := by simp [address]
  have huuid : uuid.toList.getLast? ≠ some '\n' := by decide +kernel
  have hform : Text.IsPlainAddress address.toList := ⟨[192, 168, 0, 1], rfl, by decide +kernel⟩
  have hno : ¬ Text.IsUuid address.toList := fun h => absurd h.length_eq (by decide +kernel)
  obtain ⟨ipv4, v, hipv4, hv, -, -, hplain⟩ := forms_checked address w
  obtain ⟨hrefused, haccepted⟩ := hplain haddress
  obtain ⟨_, v', -, hv', -, -, hidentifier⟩ := forms_checked uuid w
  exact ⟨haddress, hascii, huuid,
    ⟨ipv4, v, hipv4, hv, (haccepted hascii).accepts hform, hrefused.refuses hno⟩,
    v', hv', (hidentifier huuid).1.accepts sample_isUuid⟩

/-- Texts that are accepted although they are not of the form: an address with a line break behind
it, one with a digit of another script, and an identifier with a line break behind it. -/
theorem forms_exceeded :
    let w := World.ofRoutines [] (.ofDate ⟨2024, 1, 1⟩)
    let broken := "1.2.3.4\n"
    let foreign := "1.2.3.٤"
    let uuid := "123e4567-e89b-12d3-a456-426614174000\n"
    ((create .string .null).extend .ipv4 [] none).Makes addressForm ∧
    ((create .string .null).extend .uuid [] none).Makes uuidForm ∧
    ¬ Text.IsPlainAddress broken.toList ∧ (addressForm.call w [.text broken]).outcome =
      .ok (.text broken) ∧
    ¬ Text.IsPlainAddress foreign.toList ∧ (addressForm.call w [.text foreign]).outcome =
      .ok (.text foreign) ∧
    ¬ Text.IsUuid uuid.toList ∧ (uuidForm.call w [.text uuid]).outcome = .ok (.text uuid) := by
  intro w broken foreign uuid
  have hplain : Text.IsPlainAddress "1.2.3.4".toList := ⟨[1, 2, 3, 4], rfl, by decide +kernel⟩
  have hbroken : Pattern.IsLine Text.IsAddress broken :=
    ⟨"1.2.3.4".toList, ['\n'], by decide +kernel, .inr rfl,
      (Text.isAddress_ascii (by simp)).2 hplain⟩
  have hforeign : Pattern.IsLine Text.IsAddress foreign := by
    refine ⟨foreign.toList, [], (List.append_nil _).symm, .inl rfl,
      [['1'], ['2'], ['3'], ['٤']], rfl, ?_, by decide +kernel⟩
    have hone (n : Nat) (c : Char) (hn : n < 10) (hc : Text.digitValue? c = some n) :
        ∃ n ≤ 255, Text.IsOctet n [c] :=
      ⟨n, by omega, (Text.isOctet_iff (by omega)).2 (.inl ⟨hn, c, rfl, hc⟩)⟩
    simp only [List.forall_mem_cons]
    exact ⟨hone 1 _ (by decide) rfl, hone 2 _ (by decide) rfl, hone 3 _ (by decide) rfl,
      hone 4 _ (by decide) (by decide +kernel), nofun⟩
  have huuid : Pattern.IsLine Text.IsUuid uuid :=
    ⟨"123e4567-e89b-12d3-a456-426614174000".toList, ['\n'], by decide +kernel,
      .inr rfl, sample_isUuid⟩
  refine ⟨addressForm_makes, uuidForm_makes, fun h =>
    ?_, (addressForm_accepts broken w).accepts hbroken, fun h =>
      ?_, (addressForm_accepts foreign w).accepts hforeign, fun h =>
        absurd h.length_eq (by decide +kernel),
    (uuidForm_accepts uuid w).accepts huuid⟩
  · exact absurd (h.plain '\n' (by decide +kernel)) (by decide)
  · exact absurd (h.plain '٤' (by decide +kernel)) (by decide)

end Validator

end Attest
