import Attest.Proofs.Attempt
import Attest.Proofs.Everywhere
import Attest.Trail
import Attest.Value.Format

/-!
# Rendering

Which values have a text. There are two kinds of trouble in writing a value: an integer with too
many digits, wherever it stands, and, in messages, a pattern that is written in bytes as an item of
a sequence, as the texts of the items are joined. There is none where neither occurs.

* `shown_error`, `plain_error`, `text_error`: the trouble outside of messages, and where it comes
  from.
* `formatted_error`, `format_error`: the trouble in messages.
* `render_error`: a text template fails only through a variable.
-/

namespace Attest

/-- Trouble in writing a value in a message. -/
def Fault.IsUnwritable (e : Fault) : Prop := e = .tooManyDigits ∨ ∃ i, e = .notTextItem i

namespace Value

/-- Whether an atom has a text: only integers may be without. -/
def hasText : Value → Bool
  | .int n => (Number.intText? n).isSome
  | _ => true

/-- Whether every integer inside a value can be written. -/
def isShort (v : Value) : Bool := v.everywhere hasText fun _ _ => true

/-- Whether a value is a pattern that is written in bytes. -/
def isBytesPattern : Value → Bool
  | .pattern ⟨.bytes _, _, _, _⟩ => true
  | _ => false

/-- Whether everything inside a value can be written wherever it stands: every integer, and every
pattern as a text. -/
def isWritable (v : Value) : Bool :=
  v.everywhere (fun a => hasText a && !a.isBytesPattern) fun _ _ => true

mutual

/-- Whether the items of a sequence, and of the sequences among them, can be joined: none of them is
a pattern that is written in bytes. The parts of a map are not joined. -/
def isJoined : Value → Bool
  | .list items | .tuple items | .set items => areJoined items
  | _ => true

def areJoined : List Value → Bool
  | [] => true
  | v :: rest => !v.isBytesPattern && v.isJoined && areJoined rest

end

theorem isWritable_missing : isWritable .missing = true := rfl

theorem isWritable_null : isWritable .null = true := rfl

theorem isWritable_text (s : String) : (Value.text s).isWritable = true := rfl

theorem isWritable_int {n : Int} :
    (Value.int n).isWritable = true ↔ n.natAbs < Nat.pow 10 Number.digitLimit := by
  simp only [isWritable, everywhere, hasText, isBytesPattern, Bool.not_false, Bool.and_true,
    Number.intText?]
  split
  · next h => exact ⟨fun _ => h, fun _ => rfl⟩
  · next h => exact ⟨fun h' => absurd h' (by simp), fun h' => absurd h' h⟩

theorem isWritable_zero : (Value.int (0 : Nat)).isWritable = true := by
  have pos : ∀ k, 0 < Nat.pow 10 k := fun k => @Nat.pow_pos 10 k (by decide)
  exact isWritable_int.2 (pos _)

/-- Smaller numbers have a text if larger ones have. -/
theorem isWritable_int_of_le {m n : Nat} (h : m ≤ n) (hn : (Value.int n).isWritable = true) :
    (Value.int m).isWritable = true :=
  isWritable_int.2 (Nat.lt_of_le_of_lt h (isWritable_int.1 hn))

/-- A number with no more digits than the limit can be written. -/
theorem isWritable_int_of_lt_pow {n k : Nat} (hk : k ≤ Number.digitLimit) (h : n < Nat.pow 10 k) :
    (Value.int n).isWritable = true := by
  have lt : ∀ limit, k ≤ limit → n < Nat.pow 10 limit := fun limit hlimit =>
    Nat.lt_of_lt_of_le h (Nat.pow_le_pow_right (by decide) hlimit)
  refine isWritable_int.2 ?_
  rw [Int.natAbs_natCast]
  exact lt _ hk

theorem isWritable_list {items : List Value} :
    (Value.list items).isWritable = true ↔ ∀ v ∈ items, v.isWritable = true := by
  simp only [isWritable, everywhere, Bool.true_and, everywhereAll_iff]

theorem isWritable_map {entries : List (Value × Value)} :
    (Value.map entries).isWritable = true ↔
      ∀ e ∈ entries, e.1.isWritable = true ∧ e.2.isWritable = true := by
  simp only [isWritable, everywhere, Bool.true_and, everywhereEntries_iff]

theorem isShort_map {entries : List (Value × Value)} :
    (Value.map entries).isShort = true ↔ ∀ e ∈ entries, e.1.isShort = true ∧
    e.2.isShort = true := by
  simp only [isShort, everywhere, Bool.true_and, everywhereEntries_iff]

theorem takenOut_isShort {whole v : Value} (place : Place) (hw : whole.isShort = true)
    (hv : v.isShort = true) : (whole.takenOut place v).isShort = true :=
  takenOut_everywhere place hw hv rfl fun _ => rfl

theorem entries?_isWritable {v : Value} {entries : List (Value × Value)}
    (hv : v.isWritable = true) (h : v.entries? = some entries) :
    ∀ e ∈ entries, e.1.isWritable = true ∧ e.2.isWritable = true :=
  entries?_everywhere hv rfl (fun _ => rfl) h

/-- An integer with too many digits, among values of which not all are short enough. -/
def IsTooLong (e : Fault) (short : Bool) : Prop := e = .tooManyDigits ∧ short = false

theorem intShown_error {n : Int} {e : Fault} (h : intShown n = .error e) :
    IsTooLong e (Value.int n).isShort := by
  unfold intShown at h
  split at h
  · cases h
  · next hn =>
    cases h
    refine ⟨rfl, ?_⟩
    simp only [isShort, everywhere, hasText, hn]
    rfl

mutual

theorem shownIn_error {e : Fault} : ∀ (v : Value) (enclosing : List String),
    shownIn enclosing v = .error e → IsTooLong e v.isShort
  | .list items, enclosing => by
    intro h
    simp only [shownIn, Attempt.bind_eq_error] at h
    rcases h with h | ⟨_, _, h⟩
    · exact shownAll_error items _ h
    · cases h
  | .tuple items, enclosing => by
    intro h
    simp only [shownIn, Attempt.bind_eq_error] at h
    rcases h with h | ⟨_, _, h⟩
    · exact shownAll_error items _ h
    · split at h <;> cases h
  | .set [], enclosing => by
    intro h
    cases h
  | .set (v :: rest), enclosing => by
    intro h
    simp only [shownIn, Attempt.bind_eq_error] at h
    rcases h with h | ⟨_, _, h⟩
    · exact shownAll_error (v :: rest) _ h
    · cases h
  | .map entries, enclosing => by
    intro h
    simp only [shownIn, Attempt.bind_eq_error] at h
    rcases h with h | ⟨_, _, h⟩
    · exact shownEntries_error entries _ h
    · cases h
  | .int n, enclosing => by
    intro h
    simp only [shownIn, atomShown] at h
    exact intShown_error h
  | .up _, _ | .missing, _ | .null, _ | .bool _, _ | .float _, _ | .nan _, _ | .text _, _
  | .bytes _, _ | .moment _, _ | .date _, _ | .time _, _ | .pattern _, _ | .mode _, _
  | .type _, _ | .object _, _ | .function _, _ | .validator _ _ _, _ => by
    intro h
    simp [shownIn, atomShown] at h

theorem shownAll_error {e : Fault} : ∀ (items : List Value) (enclosing : List String),
    shownAll enclosing items = .error e →
      IsTooLong e (everywhereAll hasText (fun _ _ => true) items)
  | [], _ => by
    intro h
    cases h
  | v :: rest, enclosing => by
    intro h
    simp only [shownAll, Attempt.bind_eq_error] at h
    rcases h with h | ⟨_, _, h | ⟨_, _, h⟩⟩
    · obtain ⟨he, hv⟩ := shownIn_error v _ h
      exact ⟨he, by simp only [isShort] at hv; simp [everywhereAll, hv]⟩
    · obtain ⟨he, hr⟩ := shownAll_error rest _ h
      exact ⟨he, by simp [everywhereAll, hr]⟩
    · cases h

theorem shownEntries_error {e : Fault} : ∀ (entries : List (Value × Value))
    (enclosing : List String), shownEntries enclosing entries = .error e →
      IsTooLong e (everywhereEntries hasText (fun _ _ => true) entries)
  | [], _ => by
    intro h
    cases h
  | (k, v) :: rest, enclosing => by
    intro h
    simp only [shownEntries, Attempt.bind_eq_error] at h
    rcases h with h | ⟨_, _, h | ⟨_, _, h | ⟨_, _, h⟩⟩⟩
    · obtain ⟨he, hk⟩ := shownIn_error k _ h
      exact ⟨he, by simp only [isShort] at hk; simp [everywhereEntries, hk]⟩
    · obtain ⟨he, hv⟩ := shownIn_error v _ h
      exact ⟨he, by simp only [isShort] at hv; simp [everywhereEntries, hv]⟩
    · obtain ⟨he, hr⟩ := shownEntries_error rest _ h
      exact ⟨he, by simp [everywhereEntries, hr]⟩
    · cases h

end

theorem shown_error {v : Value} {e : Fault} (h : v.shown = .error e) : IsTooLong e v.isShort :=
  shownIn_error v [] h

theorem plain_error {v : Value} {e : Fault} (h : v.plain = .error e) :
    IsTooLong e v.isShort := by
  unfold plain at h
  split at h
  case h_7 => exact shown_error h
  all_goals cases h

/-! ## Text in messages -/

theorem formatMap_error {v : Value} {e : Fault} (h : v.formatMap = .error e) :
    IsTooLong e v.isShort := by
  unfold formatMap at h
  split at h
  · cases h
  · exact shown_error h

theorem formatAtom_error {v : Value} {e : Fault} (h : v.formatAtom = .error e) :
    IsTooLong e v.isShort := by
  unfold formatAtom at h
  split at h
  case h_8 =>
    rcases Attempt.bind_eq_error.1 h with h | ⟨_, -, h⟩
    · exact plain_error h
    · cases h
  all_goals cases h

theorem bind_text_ne_bytes {α : Type} {x : Except Fault α} {f : α → String} {bs : List UInt8} :
    x >>= (fun a => .ok (Formatted.text (f a))) ≠ .ok (.bytes bs) := by
  intro h
  obtain ⟨_, -, h⟩ := Attempt.bind_eq_ok.1 h
  cases h

theorem formatAtom_eq_bytes {v : Value} {bs : List UInt8} (h : v.formatAtom = .ok (.bytes bs)) :
    v.isBytesPattern = true := by
  unfold formatAtom at h
  split at h
  case h_4 p =>
    obtain ⟨source, options, root, groups⟩ := p
    cases source with
    | text s => cases h
    | bytes bs => rfl
  case h_8 => exact absurd h bind_text_ne_bytes
  all_goals cases h

/-- Only a pattern that is written in bytes becomes bytes. -/
theorem formatAt_eq_bytes {whole v : Value} {place : Place} {bs : List UInt8}
    (h : formatAt whole place v = .ok (.bytes bs)) : v.isBytesPattern = true := by
  unfold formatAt at h
  split at h
  case h_6 => exact formatAtom_eq_bytes h
  case h_5 => cases h
  case h_4 => exact absurd h bind_text_ne_bytes
  all_goals
    obtain ⟨_, -, h⟩ := Attempt.bind_eq_ok.1 h
    exact absurd h bind_text_ne_bytes

/-- What holds no bytes can be joined. -/
theorem Formatted.texts_map (i : Nat) (ss : List String) :
    Formatted.texts i (ss.map .text) = .ok ss := by
  induction ss generalizing i with
  | nil => rfl
  | cons s rest ih =>
    rw [List.map_cons, Formatted.texts, ih]
    rfl

/-- An atom has a text, unless it is an integer with too many digits or a pattern that is written in
bytes. -/
theorem formatAtom_ok {v : Value} (hshort : v.isShort = true) (hbytes : v.isBytesPattern = false) :
    ∃ s, v.formatAtom = .ok (.text s) := by
  cases h : v.formatAtom with
  | error e => cases hshort.symm.trans (formatAtom_error h).2
  | ok f =>
    cases f with
    | text s => exact ⟨s, rfl⟩
    | bytes bs => cases hbytes.symm.trans (formatAtom_eq_bytes h)

/-- What cannot be joined holds bytes. -/
theorem Formatted.texts_error {parts : List Formatted} {i : Nat} {e : Fault}
    (h : Formatted.texts i parts = .error e) :
    (∃ j, e = .notTextItem j) ∧ ∃ bs, Formatted.bytes bs ∈ parts := by
  induction parts generalizing i with
  | nil => cases h
  | cons part rest ih =>
    cases part with
    | bytes bs =>
      cases h
      exact ⟨⟨i, rfl⟩, bs, List.mem_cons_self⟩
    | text s =>
      rcases Attempt.bind_eq_error.1 h with h | ⟨_, -, h⟩
      · obtain ⟨hj, bs, hbs⟩ := ih h
        exact ⟨hj, bs, List.mem_cons_of_mem _ hbs⟩
      · cases h

/-- What is joined holds no bytes. -/
theorem Formatted.texts_ok {parts : List Formatted} {i : Nat} {ss : List String}
    (h : Formatted.texts i parts = .ok ss) : ∀ bs, Formatted.bytes bs ∉ parts := by
  induction parts generalizing i ss with
  | nil => exact fun _ => List.not_mem_nil
  | cons part rest ih =>
    intro bs hbs
    cases part with
    | bytes bs => cases h
    | text s =>
      obtain ⟨_, hrest, -⟩ := Attempt.bind_eq_ok.1 h
      rcases List.mem_cons.1 hbs with hbs | hbs
      · cases hbs
      · exact ih hrest bs hbs

theorem exists_bytesPattern {whole : Value} : ∀ {items : List Value} {place : Place} {i : Nat}
    {parts : List Formatted} {bs : List UInt8}, formatAll whole place i items = .ok parts →
      Formatted.bytes bs ∈ parts → areJoined items = false
  | [], _, _, _, _, h, hbs => by
    cases h
    cases hbs
  | v :: rest, place, i, parts, bs, h, hbs => by
    obtain ⟨first, hv, h⟩ := Attempt.bind_eq_ok.1 h
    obtain ⟨others, hrest, h⟩ := Attempt.bind_eq_ok.1 h
    cases h
    rcases List.mem_cons.1 hbs with rfl | hbs
    · simp [areJoined, formatAt_eq_bytes hv]
    · simp [areJoined, exists_bytesPattern hrest hbs]

/-- The trouble in a part of a message: an integer with too many digits, which is in the part if it
is not elsewhere in the whole, or an item that cannot be joined. -/
def IsInMessage (whole : Value) (e : Fault) (short joined : Bool) : Prop :=
  e = .tooManyDigits ∧ (whole.isShort = true → short = false) ∨
    (∃ i, e = .notTextItem i) ∧ joined = false

mutual

theorem formatAt_error {whole : Value} {e : Fault} :
    ∀ (v : Value) (place : Place), formatAt whole place v = .error e →
      IsInMessage whole e v.isShort v.isJoined
  | .list items, place | .tuple items, place | .set items, place => by
    intro h
    simp only [formatAt, Attempt.bind_eq_error] at h
    rcases h with h | ⟨parts, hparts, h | ⟨_, _, h⟩⟩
    · exact formatAll_error items _ _ h
    · obtain ⟨hj, bs, hbs⟩ := Formatted.texts_error h
      exact .inr ⟨hj, exists_bytesPattern hparts hbs⟩
    · cases h
  | .map entries, place => by
    intro h
    simp only [formatAt, Attempt.bind_eq_error] at h
    rcases h with h | ⟨_, _, h⟩
    · obtain ⟨he, hv⟩ := formatMap_error h
      refine .inl ⟨he, fun hw => Bool.eq_false_iff.2 fun hm => ?_⟩
      rw [takenOut_isShort place hw hm] at hv
      cases hv
    · cases h
  | .up _, _ => by
    intro h
    cases h
  | .missing, _ | .null, _ | .bool _, _ | .int _, _ | .float _, _ | .nan _, _ | .text _, _
  | .bytes _, _ | .moment _, _ | .date _, _ | .time _, _ | .pattern _, _ | .mode _, _
  | .type _, _ | .object _, _ | .function _, _ | .validator _ _ _, _ => by
    intro h
    simp only [formatAt] at h
    obtain ⟨he, hv⟩ := formatAtom_error h
    exact .inl ⟨he, fun _ => hv⟩

theorem formatAll_error {whole : Value} {e : Fault} :
    ∀ (items : List Value) (place : Place) (i : Nat), formatAll whole place i items = .error e →
      IsInMessage whole e (everywhereAll hasText (fun _ _ => true) items) (areJoined items)
  | [], _, _ => by
    intro h
    cases h
  | v :: rest, place, i => by
    intro h
    simp only [formatAll, Attempt.bind_eq_error] at h
    rcases h with h | ⟨_, _, h | ⟨_, _, h⟩⟩
    · rcases formatAt_error v _ h with ⟨he, hv⟩ | ⟨he, hv⟩
      · refine .inl ⟨he, fun hw => ?_⟩
        have := hv hw
        rw [isShort] at this
        simp [everywhereAll, this]
      · exact .inr ⟨he, by simp [areJoined, hv]⟩
    · rcases formatAll_error rest _ _ h with ⟨he, hr⟩ | ⟨he, hr⟩
      · exact .inl ⟨he, fun hw => by simp [everywhereAll, hr hw]⟩
      · exact .inr ⟨he, by simp [areJoined, hr]⟩
    · cases h

end

/-- The trouble in writing a value in a message: an integer in it with too many digits, or an item
that cannot be joined. -/
def Spoils (v : Value) (e : Fault) : Prop :=
  IsTooLong e v.isShort ∨ (∃ i, e = .notTextItem i) ∧ v.isJoined = false

theorem formatted_error {v : Value} {e : Fault} (h : v.formatted = .error e) : v.Spoils e := by
  rcases formatAt_error v _ h with ⟨he, hv⟩ | hj
  · refine .inl ⟨he, Bool.eq_false_iff.2 fun hw => ?_⟩
    rw [hv hw] at hw
    cases hw
  · exact .inr hj

/-! ## Values that can be written wherever they stand -/

section
variable {atom : Value → Bool} {container : List Value → Nat → Bool}

mutual

/-- Where no pattern is written in bytes, all that is joined is a text. -/
theorem isJoined_of_everywhere (hatom : ∀ a, atom a = true → a.isBytesPattern = false) :
    ∀ {v : Value}, v.everywhere atom container = true →
    v.isJoined = true ∧ v.isBytesPattern = false
  | .list items, h | .tuple items, h | .set items, h => by
    simp only [everywhere, Bool.and_eq_true] at h
    exact ⟨areJoined_of_everywhere hatom h.2, rfl⟩
  | .map _, _ => ⟨rfl, rfl⟩
  | .missing, h | .null, h | .bool _, h | .int _, h | .float _, h | .nan _, h | .text _, h
  | .bytes _, h | .moment _, h | .date _, h | .time _, h | .pattern _, h | .mode _, h | .type _, h
  | .object _, h | .function _, h | .validator _ _ _, h | .up _, h => by
    simp only [everywhere] at h
    exact ⟨rfl, hatom _ h⟩

theorem areJoined_of_everywhere (hatom : ∀ a, atom a = true → a.isBytesPattern = false) :
    ∀ {items : List Value}, everywhereAll atom container items = true →
    areJoined items = true
  | [], _ => rfl
  | v :: rest, h => by
    simp only [everywhereAll, Bool.and_eq_true] at h
    obtain ⟨hjoined, hbytes⟩ := isJoined_of_everywhere hatom h.1
    simp only [areJoined, hbytes, hjoined, areJoined_of_everywhere hatom h.2,
      Bool.not_false, Bool.and_true]

end

end

/-- What can be written has no integer that is too long, and can be joined. -/
theorem isWritable_cases (v : Value) (h : v.isWritable = true) :
    v.isShort = true ∧ v.isJoined = true ∧ v.isBytesPattern = false := by
  refine ⟨everywhere_imp (fun a ha => ?_) h, isJoined_of_everywhere (fun a ha => ?_) h⟩
  · exact (Bool.and_eq_true_iff.1 ha).1
  · simpa only [Bool.not_eq_true'] using (Bool.and_eq_true_iff.1 ha).2

theorem isWritable_eq_false_of_isShort {v : Value} (h : v.isShort = false) : v.isWritable = false :=
  Bool.eq_false_iff.2 fun hw => by simp [(isWritable_cases v hw).1] at h

theorem Spoils.isUnwritable {v : Value} {e : Fault} (h : v.Spoils e) : e.IsUnwritable :=
  h.imp (·.1) (·.1)

theorem Spoils.isWritable {v : Value} {e : Fault} (h : v.Spoils e) : v.isWritable = false := by
  refine Bool.eq_false_iff.2 fun hw => ?_
  obtain ⟨hshort, hjoined, -⟩ := isWritable_cases v hw
  rcases h with ⟨-, hlong⟩ | ⟨-, hapart⟩
  · rw [hshort] at hlong
    cases hlong
  · rw [hjoined] at hapart
    cases hapart

theorem Spoils.eq_tooManyDigits {v : Value} {e : Fault} (h : v.Spoils e) (hv : v.isJoined = true) :
    e = .tooManyDigits := by
  rcases h with ⟨he, -⟩ | ⟨-, hapart⟩
  · exact he
  · rw [hv] at hapart
    cases hapart

theorem format_error {v : Value} {e : Fault} (h : v.format = .error e) : v.Spoils e := by
  rcases Attempt.bind_eq_error.1 h with h | ⟨_, -, h⟩
  · exact formatted_error h
  · cases h

/-! ## Templates -/

/-- Whether a template is a text, which it has to be to be filled. -/
def isTemplate (v : Value) : Bool := v.asText?.isSome

theorem templateText_ok {template : Value} (h : template.isTemplate = true) :
    ∃ s, template.templateText = .ok s := by
  obtain ⟨s, hs⟩ := Option.isSome_iff_exists.1 h
  exact ⟨s, by simp [templateText, hs]⟩

/-- A text template fails only through a variable that cannot be written. -/
theorem render_error {template : Value} {bindings : List (String × Value)} {e : Fault}
    (ht : template.isTemplate = true) (h : render template bindings = .error e) :
    ∃ b ∈ bindings, b.2.Spoils e := by
  unfold render at h
  rcases Attempt.bind_eq_error.1 h with h | ⟨texts, -, h⟩
  · obtain ⟨⟨name, v⟩, hb, h⟩ := Attempt.exists_of_mapM_error h
    rcases Attempt.bind_eq_error.1 h with h | ⟨_, _, h⟩
    · exact ⟨(name, v), hb, format_error h⟩
    · cases h
  · obtain ⟨s, hs⟩ := templateText_ok ht
    simp [hs] at h

end Value

/-! ## Trails -/

namespace Trail

theorem extend_error {written : String} {segment : Value} {e : Fault}
    (h : extend written segment = .error e) : Value.IsTooLong e segment.isShort := by
  unfold extend at h
  rcases Attempt.bind_eq_error.1 h with h | ⟨s, -, h⟩
  · exact Value.plain_error h
  · split at h
    · cases h
    · split at h <;> cases h

theorem text_error {trail : Trail} {e : Fault} (h : trail.text = .error e) :
    e = .tooManyDigits ∧ ∃ segment ∈ trail, segment.isShort = false := by
  have step : ∀ (trail : Trail) (written : String), trail.foldlM extend written = .error e →
      e = .tooManyDigits ∧ ∃ segment ∈ trail, segment.isShort = false := by
    intro trail
    induction trail with
    | nil => intro written h; cases h
    | cons segment rest ih =>
      intro written h
      rw [List.foldlM_cons, Attempt.bind_eq_error] at h
      rcases h with h | ⟨written', -, h⟩
      · obtain ⟨he, hs⟩ := extend_error h
        exact ⟨he, segment, List.mem_cons_self, hs⟩
      · obtain ⟨he, s, hs, hw⟩ := ih written' h
        exact ⟨he, s, List.mem_cons_of_mem _ hs, hw⟩
  exact step trail "" h

end Trail

end Attest
