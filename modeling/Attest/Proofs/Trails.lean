import Attest.Failure
import Attest.Proofs.Numerals
import Mathlib.Data.List.SplitBy

/-!
# Trails as text

A written trail can be read back. It is cut in front of every dot and every opening bracket; each
piece is then one segment, and its first character tells an index from a name. This takes indices
that can be written, and names that are not empty and have neither a dot nor an opening bracket. A
closing bracket does no harm in a name: whether a piece is an index is settled by how it begins.

* `Number.readInt_intText`: an integer that can be written is read back.
* `Trail.text_eq_ok`: a written trail is its pieces, one after the other.
* `Trail.cut_pieces`: a written trail is cut into just these pieces.
* `Trail.read_text`: a written trail is read back.
* `Trail.text_unambiguous`: trails that read the same are the same, and so are those of failures
  whose reports say that they are at the same place.
-/

namespace Attest

/-! ## Integers -/

namespace Numeral

theorem isBlank_of_mem_nil : ∀ c ∈ ([] : List Char), Text.isBlank c = true := List.forall_mem_nil _

/-- The numeral as which an integer is written. -/
def ofInt (n : Int) : Numeral where
  before := []
  sign := if n < 0 then .minus else .none
  digits := Nat.toDigits 10 n.natAbs
  after := []
  before_isBlank := isBlank_of_mem_nil
  digits_isDigit := fun _ hc => Nat.isDigit_of_mem_toDigits (by decide) (by decide) hc
  digits_ne_nil := Nat.toDigits_ne_nil
  after_isBlank := isBlank_of_mem_nil

theorem magnitude_ofInt (n : Int) : (ofInt n).magnitude = n.natAbs := by
  have hvalue : Number.digitsValue (Nat.toDigits 10 n.natAbs) = n.natAbs :=
    Nat.ofDigitChars_ten_toDigits
  rw [← hvalue, Number.digitsValue_eq]
  rfl

theorem value_ofInt (n : Int) : (ofInt n).value = n := by
  have hsign : (ofInt n).isNegative = true ↔ n < 0 := by
    by_cases hn : n < 0 <;> simp [isNegative, ofInt, hn]
  rw [value, magnitude_ofInt]
  split
  · next h =>
    have hn := hsign.1 h
    omega
  · next h =>
    have hn := mt hsign.2 h
    omega

theorem ink_ofInt (n : Int) : (ofInt n).ink = (Number.intText n).toList := by
  have hsign : (ofInt n).sign.chars = if n < 0 then ['-'] else [] := by
    rw [ofInt]
    split <;> rfl
  rw [ink, hsign, ofInt, Number.intText, Number.natText]
  split
  · rw [String.toList_append, String.toList_ofList, String.toList_ofList]
  · rw [String.toList_ofList]
    rfl

end Numeral

namespace Number

/-- An integer that can be written is read back. -/
theorem readInt_intText {n : Int} (hn : n.natAbs < Nat.pow 10 digitLimit) :
    readInt (intText n) = .ok n := by
  have hlength : ∀ limit, 0 < limit → n.natAbs < Nat.pow 10 limit →
    (Numeral.ofInt n).digits.length ≤ limit :=
    fun _ hpos h => (Nat.length_toDigits_le_iff (by decide) hpos).2 h
  have hread := (Numeral.ofInt n).readInt_eq
  rwa [Numeral.ink_ofInt, String.ofList_toList, if_pos (hlength digitLimit (by decide) hn),
    Numeral.value_ofInt] at hread

end Number

theorem Value.plain_int {n : Int} (hn : n.natAbs < Nat.pow 10 Number.digitLimit) :
    (Value.int n).plain = .ok (Number.intText n) := by
  have htext : Number.intText? n = some (Number.intText n) := by
    unfold Number.intText?
    split
    · rfl
    · next h => exact absurd hn h
  have hplain : (Value.int n).plain = intShown n := rfl
  rw [hplain]
  unfold intShown
  rw [htext]

namespace Trail

/-! ## Segments -/

/-- What a segment begins with behind another one. -/
def isMark (c : Char) : Bool := c == '.' || c == '['

/-- Segments that are told from what stands around them: indices that can be written, and names with
at least one character and without marks. -/
inductive IsClear : Value → Prop
  | index {n : Int} (hn : n.natAbs < Nat.pow 10 Number.digitLimit) : IsClear (.int n)
  | name {s : String} (hs : s ≠ "") (hmarks : ∀ c ∈ s.toList, isMark c = false) : IsClear (.text s)

/-- The characters of a segment that comes first. -/
def opening : Value → List Char
  | .int n => '[' :: ((Number.intText n).toList ++ [']'])
  | .text s => s.toList
  | _ => []

/-- The characters of a segment behind another one. -/
def behind : Value → List Char
  | .text s => '.' :: s.toList
  | segment => opening segment

/-- The characters of a trail, segment by segment. -/
def pieces : Trail → List (List Char)
  | [] => []
  | first :: rest => opening first :: rest.map behind

variable {segment : Value} {p q : Trail}

theorem intText_isMark {n : Int} {c : Char} (hc : c ∈ (Number.intText n).toList) :
    isMark c = false := by
  rw [← Numeral.ink_ofInt] at hc
  rcases (Numeral.ofInt n).ink_isInked c hc with hdigit | rfl | rfl
  · have hbounds := Number.isDigit_iff.1 hdigit
    simp only [isMark, Bool.or_eq_false_iff, beq_eq_false_iff_ne]
    constructor
    · rintro rfl
      exact absurd hbounds (by decide)
    · rintro rfl
      exact absurd hbounds (by decide)
  · rfl
  · rfl

namespace IsClear

/-- A piece is one character with others behind it that are no marks. -/
theorem opening_eq (h : IsClear segment) :
    ∃ c rest, opening segment = c :: rest ∧ ∀ d ∈ rest, isMark d = false := by
  cases h with
  | index hn =>
    refine ⟨_, _, rfl, fun d hd => ?_⟩
    rcases List.mem_append.1 hd with hd | hd
    · exact intText_isMark hd
    · rw [List.mem_singleton.1 hd]
      rfl
  | @name s hs hmarks =>
    obtain ⟨c, rest, hchars⟩ := List.exists_cons_of_ne_nil (mt String.toList_eq_nil_iff.1 hs)
    exact ⟨c, rest, hchars, fun d hd => hmarks d (hchars ▸ List.mem_cons_of_mem c hd)⟩

/-- Behind another segment, the one character is a mark. -/
theorem behind_eq (h : IsClear segment) :
    ∃ c rest, behind segment = c :: rest ∧ isMark c = true ∧ ∀ d ∈ rest, isMark d = false := by
  cases h with
  | @index n hn =>
    obtain ⟨c, rest, hchars, hrest⟩ := (IsClear.index hn).opening_eq
    obtain ⟨rfl, rfl⟩ := List.cons.inj hchars
    exact ⟨_, _, rfl, rfl, hrest⟩
  | name hs hmarks => exact ⟨_, _, rfl, rfl, hmarks⟩

end IsClear

/-! ## Writing -/

/-- A segment is written behind what there is, with a mark unless it is a name that comes first. -/
theorem IsClear.extend_eq (h : IsClear segment) (written : String) : extend written segment =
    .ok (written ++ String.ofList (if written = "" then opening segment else behind segment)) := by
  cases h with
  | @index n hn =>
    have hsame : behind (.int n) = opening (.int n) := rfl
    have hindex : isIndex (.int n) = true := rfl
    have hchars : String.ofList (opening (.int n)) = "[" ++ Number.intText n ++ "]" := by
      rw [← String.toList_inj]
      simp [opening]
    rw [extend, Value.plain_int hn, Attempt.ok_bind, if_pos hindex, hsame, ite_self, hchars,
      ← String.append_assoc, ← String.append_assoc]
    rfl
  | @name s hs hmarks =>
    have hplain : (Value.text s).plain = .ok s := rfl
    have hindex : isIndex (.text s) = false := rfl
    rw [extend, hplain, Attempt.ok_bind, if_neg (by rw [hindex]; decide)]
    by_cases hw : written = ""
    · subst hw
      rw [if_pos rfl, String.empty_append, opening, String.ofList_toList]
      rfl
    · have hchars : String.ofList (behind (.text s)) = "." ++ s := by
        rw [← String.toList_inj]
        simp [behind]
      rw [if_neg (by simpa using hw), if_neg hw, hchars, ← String.append_assoc]
      rfl

/-- Behind what there is already, all segments are written with their marks. -/
theorem foldlM_extend (hp : ∀ segment ∈ p, IsClear segment) {written : String} (hw : written ≠ "") :
    p.foldlM extend written = .ok (written ++ String.ofList (p.map behind).flatten) := by
  induction p generalizing written with
  | nil => simp
  | cons segment rest ih =>
    have hextended : written ++ String.ofList (behind segment) ≠ "" := by simp [hw]
    rw [List.foldlM_cons, (hp segment List.mem_cons_self).extend_eq, if_neg hw, Attempt.ok_bind,
      ih (fun s hs => hp s (List.mem_cons_of_mem _ hs)) hextended, List.map_cons, List.flatten_cons,
      String.ofList_append, String.append_assoc]

/-- A written trail is its pieces, one after the other. -/
theorem text_eq_ok (hp : ∀ segment ∈ p, IsClear segment) :
    p.text = .ok (String.ofList p.pieces.flatten) := by
  cases p with
  | nil => rfl
  | cons first rest =>
    have hfirst := hp first List.mem_cons_self
    have hw : String.ofList (opening first) ≠ "" := by
      obtain ⟨c, more, hopening, -⟩ := hfirst.opening_eq
      simp [hopening]
    rw [text, List.foldlM_cons, hfirst.extend_eq, if_pos rfl, String.empty_append, Attempt.ok_bind,
      foldlM_extend (fun s hs => hp s (List.mem_cons_of_mem _ hs)) hw, pieces, List.flatten_cons,
      String.ofList_append]

/-! ## Reading -/

/-- Cuts a written trail in front of every mark. -/
def cut (written : String) : List (List Char) := written.toList.splitBy fun _ c => !isMark c

/-- The segment of a piece: an index between brackets, or else a name, behind a dot unless it comes
first. -/
def ofPiece : List Char → Except Number.IntTrouble Value
  | '[' :: index => do return .int (← Number.readInt (String.ofList index.dropLast))
  | '.' :: name => .ok (.text (String.ofList name))
  | name => .ok (.text (String.ofList name))

/-- Reads a written trail. -/
def read (written : String) : Except Number.IntTrouble Trail := (cut written).mapM ofPiece

/-- Nothing is cut within a piece. -/
theorem isChain_piece {c : Char} {rest : List Char} (h : ∀ d ∈ rest, isMark d = false) :
    (c :: rest).IsChain fun _ d => (!isMark d) = true := by
  induction rest generalizing c with
  | nil => exact List.isChain_singleton c
  | cons d rest ih =>
    refine List.isChain_cons_cons.2 ⟨?_, ih fun e he => h e (List.mem_cons_of_mem d he)⟩
    rw [h d List.mem_cons_self]
    rfl

/-- The pieces are cut apart, for all but the first begin with a mark. -/
theorem isChain_pieces (hp : ∀ segment ∈ p, IsClear segment) {piece : List Char}
    (hpiece : piece ≠ []) :
    (piece :: p.map behind).IsChain fun a b =>
      ∃ (ha : a ≠ []) (hb : b ≠ []), (fun _ c => !isMark c) (a.getLast ha) (b.head hb) = false := by
  -- the piece in front is any one, so that the next one can take its place
  induction p generalizing piece with
  | nil => exact List.isChain_singleton piece
  | cons segment rest ih =>
    obtain ⟨c, more, hbehind, hmark, -⟩ := (hp segment List.mem_cons_self).behind_eq
    have hne : behind segment ≠ [] := by simp [hbehind]
    refine List.isChain_cons_cons.2 ⟨⟨hpiece, hne, ?_⟩,
      ih (fun s hs => hp s (List.mem_cons_of_mem _ hs)) hne⟩
    simp [hbehind, hmark]

theorem pieces_eq (hp : ∀ segment ∈ p, IsClear segment) {piece : List Char}
    (hpiece : piece ∈ p.pieces) :
    ∃ c rest, piece = c :: rest ∧ ∀ d ∈ rest, isMark d = false := by
  cases p with
  | nil => cases hpiece
  | cons first rest =>
    rcases List.mem_cons.1 hpiece with rfl | hpiece
    · exact (hp first List.mem_cons_self).opening_eq
    · obtain ⟨segment, hsegment, rfl⟩ := List.mem_map.1 hpiece
      obtain ⟨c, more, hbehind, -, hmore⟩ :=
        (hp segment (List.mem_cons_of_mem _ hsegment)).behind_eq
      exact ⟨c, more, hbehind, hmore⟩

/-- A written trail is cut into its pieces. -/
theorem cut_pieces (hp : ∀ segment ∈ p, IsClear segment) :
    cut (String.ofList p.pieces.flatten) = p.pieces := by
  rw [cut, String.toList_ofList]
  refine List.splitBy_flatten ?_ ?_ ?_
  · intro hnil
    obtain ⟨c, rest, h, -⟩ := pieces_eq hp hnil
    cases h
  · intro piece hpiece
    obtain ⟨c, rest, rfl, hrest⟩ := pieces_eq hp hpiece
    exact isChain_piece hrest
  · cases p with
    | nil => exact List.isChain_nil
    | cons first rest =>
      obtain ⟨c, more, hopening, -⟩ := (hp first List.mem_cons_self).opening_eq
      exact isChain_pieces (fun s hs => hp s (List.mem_cons_of_mem _ hs)) (by simp [hopening])

theorem IsClear.ofPiece_opening (h : IsClear segment) :
    ofPiece (opening segment) = .ok segment := by
  cases h with
  | index hn =>
    rw [opening, ofPiece, List.dropLast_concat, String.ofList_toList, Number.readInt_intText hn]
    rfl
  | @name s hs hmarks =>
    rw [opening]
    unfold ofPiece
    -- without marks, the name is not taken for an index or for a name behind a dot
    split
    · next hchars =>
      rw [hchars] at hmarks
      exact absurd (hmarks '[' List.mem_cons_self) (by decide)
    · next hchars =>
      rw [hchars] at hmarks
      exact absurd (hmarks '.' List.mem_cons_self) (by decide)
    · rw [String.ofList_toList]

theorem IsClear.ofPiece_behind (h : IsClear segment) : ofPiece (behind segment) = .ok segment := by
  cases h with
  | index hn => exact (IsClear.index hn).ofPiece_opening
  | name hs hmarks => rw [behind, ofPiece, String.ofList_toList]

/-- A written trail is read back. -/
theorem read_text (hp : ∀ segment ∈ p, IsClear segment) : ∃ s, p.text = .ok s ∧ read s = .ok p := by
  refine ⟨_, text_eq_ok hp, ?_⟩
  rw [read, cut_pieces hp]
  cases p with
  | nil => rfl
  | cons first rest =>
    have hbehind : ∀ segment ∈ rest, (ofPiece ∘ behind) segment = .ok (id segment) :=
      fun segment hsegment => (hp segment (List.mem_cons_of_mem _ hsegment)).ofPiece_behind
    have hrest : (rest.map behind).mapM ofPiece = .ok rest := by
      rw [List.mapM_map, Attempt.mapM_eq_ok hbehind, List.map_id]
    rw [pieces, List.mapM_cons, (hp first List.mem_cons_self).ofPiece_opening, hrest]
    rfl

/-- Trails that read the same are the same. -/
theorem text_inj (hp : ∀ segment ∈ p, IsClear segment) (hq : ∀ segment ∈ q, IsClear segment) :
    p.text = q.text ↔ p = q := by
  refine ⟨fun h => ?_, congrArg text⟩
  obtain ⟨s, hs, hread⟩ := read_text hp
  obtain ⟨t, ht, hread'⟩ := read_text hq
  rw [hs, ht] at h
  cases h
  exact Except.ok.inj (hread.symm.trans hread')

end Trail

/-! ## Reports -/

/-- The place that a report names. -/
def Report.trail : Report → String
  | mk _ trail _ _ _ _ _ => trail

theorem Failure.report_trail {f : Failure} {r : Report} (h : f.report = .ok r) :
    f.notice.trail.text = .ok r.trail := by
  obtain ⟨n, children⟩ := f
  obtain ⟨parts, -, h⟩ := Attempt.bind_eq_ok.1 h
  obtain ⟨trail, htrail, h⟩ := Attempt.bind_eq_ok.1 h
  obtain ⟨got, -, h⟩ := Attempt.bind_eq_ok.1 h
  obtain ⟨expected, -, h⟩ := Attempt.bind_eq_ok.1 h
  cases h
  exact htrail

namespace Trail

variable {p q : Trail}

/-- Trails of clear segments are written, and two of them read the same just if they are the same:
no index is taken for a name of digits, wherever it stands. So the report of a failure tells the
trail of the failure. -/
theorem text_unambiguous (hp : ∀ segment ∈ p, IsClear segment)
    (hq : ∀ segment ∈ q, IsClear segment) :
    ∃ s t, p.text = .ok s ∧ q.text = .ok t ∧ (s = t ↔ p = q) ∧
      ∀ {f g : Failure} {r u : Report}, f.notice.trail = p → g.notice.trail = q →
        f.report = .ok r → g.report = .ok u → (r.trail = u.trail ↔ p = q) := by
  have htext : ∀ {s t : String}, p.text = .ok s → q.text = .ok t → (s = t ↔ p = q) := by
    intro s t hs ht
    rw [← text_inj hp hq, hs, ht, Except.ok.injEq]
  refine ⟨_, _, text_eq_ok hp, text_eq_ok hq, htext (text_eq_ok hp) (text_eq_ok hq), ?_⟩
  intro f g r u hf hg hr hu
  exact htext (hf ▸ Failure.report_trail hr) (hg ▸ Failure.report_trail hu)

/-- An index in front of a name of the same digit, and the two the other way round. -/
theorem text_unambiguous_digits :
    let p : Trail := [.text "items", .int 1, .text "1"]
    let q : Trail := [.text "items", .text "1", .int 1]
    let failure (trail : Trail) := Failure.mk ⟨.text "bad", [], trail, "bad"⟩ []
    (∀ segment ∈ p, IsClear segment) ∧ (∀ segment ∈ q, IsClear segment) ∧ p ≠ q ∧
      p.text = .ok "items[1].1" ∧ q.text = .ok "items.1[1]" ∧
      ∃ r u, (failure p).report = .ok r ∧ (failure q).report = .ok u ∧ r.trail ≠ u.trail := by
  intro p q failure
  have hitems : IsClear (.text "items") := .name (by decide) (by simp [isMark])
  have hindex : IsClear (.int 1) := .index (by decide +kernel)
  have hdigit : IsClear (.text "1") := .name (by decide) (by simp [isMark])
  have hp : ∀ segment ∈ p, IsClear segment := by simp [p, hitems, hindex, hdigit]
  have hq : ∀ segment ∈ q, IsClear segment := by simp [q, hitems, hindex, hdigit]
  have hne : p ≠ q := by simp [p, q]
  have hptext : p.text = .ok "items[1].1" := Attempt.toOption_eq_some.1 (by decide +kernel)
  have hqtext : q.text = .ok "items.1[1]" := Attempt.toOption_eq_some.1 (by decide +kernel)
  have hreport : ∀ {trail : Trail} {s : String}, trail.text = .ok s →
      (failure trail).report = .ok (.mk "bad" s .null .null none none []) := by
    intro trail s h
    simp only [failure, Failure.report, Failure.reports, Notice.report, h]
    rfl
  obtain ⟨s, t, hs, ht, -, htells⟩ := text_unambiguous hp hq
  refine ⟨hp, hq, hne, hptext, hqtext, _, _, hreport hptext, hreport hqtext, ?_⟩
  exact mt (htells rfl rfl (hreport hptext) (hreport hqtext)).1 hne

/-- With a dot in it, a name reads as two names. -/
example : text [.text "user.name"] = text [.text "user", .text "name"] := rfl

end Trail

end Attest
