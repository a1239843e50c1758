import Attest.Proofs.Containment

/-!
# What can be shown

A message can show a value just where all integers in it can be written and where what stands in
sequences can be joined, and so a failure can be made just of such values. All other values can be
shown: deep ones, cyclic ones, and maps with keys of any kind.

* `isShort_of_shown`, `isShort_of_unfold`: nothing that is too long to be written is left out of a
  text.
* `format_ok_iff`, `make_ok_iff`, `coerce_error`: values, failures, and what a kind does not accept.
-/

namespace Attest

namespace Value

/-! ## Explicit text -/

theorem isShort_of_intShown {n : Int} {s : String} (h : intShown n = .ok s) :
    (Value.int n).isShort = true := by
  unfold intShown at h
  split at h
  · next hn => simp [isShort, everywhere, hasText, hn]
  · cases h

mutual

theorem isShort_of_shownIn : ∀ (v : Value) (enclosing : List String) {s : String},
    shownIn enclosing v = .ok s → v.isShort = true
  | .list items, enclosing, s => by
    intro h
    obtain ⟨parts, h, -⟩ := Attempt.bind_eq_ok.1 h
    simpa only [isShort, everywhere, Bool.true_and] using isShort_of_shownAll items _ h
  | .tuple items, enclosing, s => by
    intro h
    obtain ⟨parts, h, -⟩ := Attempt.bind_eq_ok.1 h
    simpa only [isShort, everywhere, Bool.true_and] using isShort_of_shownAll items _ h
  | .set [], _, _ => fun _ => rfl
  | .set (v :: rest), enclosing, s => by
    intro h
    obtain ⟨parts, h, -⟩ := Attempt.bind_eq_ok.1 h
    simpa only [isShort, everywhere, Bool.true_and] using isShort_of_shownAll (v :: rest) _ h
  | .map entries, enclosing, s => by
    intro h
    obtain ⟨parts, h, -⟩ := Attempt.bind_eq_ok.1 h
    simpa only [isShort, everywhere, Bool.true_and] using isShort_of_shownEntries entries _ h
  | .int n, enclosing, s => by
    intro h
    simp only [shownIn, atomShown] at h
    exact isShort_of_intShown h
  | .up _, _, _ | .missing, _, _ | .null, _, _ | .bool _, _, _ | .float _, _, _ | .nan _, _, _
  | .text _, _, _ | .bytes _, _, _ | .moment _, _, _ | .date _, _, _ | .time _, _, _
  | .pattern _, _, _ | .mode _, _, _ | .type _, _, _ | .object _, _, _ | .function _, _, _
  | .validator _ _ _, _, _ => fun _ => rfl

theorem isShort_of_shownAll :
    ∀ (items : List Value) (enclosing : List String) {parts : List String},
    shownAll enclosing items = .ok parts → everywhereAll hasText (fun _ _ => true) items = true
  | [], _, _ => fun _ => rfl
  | v :: rest, enclosing, parts => by
    intro h
    simp only [shownAll, Attempt.bind_eq_ok] at h
    obtain ⟨first, hv, others, hrest, -⟩ := h
    have hfirst := isShort_of_shownIn v _ hv
    simp only [isShort] at hfirst
    simp only [everywhereAll, hfirst, isShort_of_shownAll rest _ hrest, Bool.and_self]

theorem isShort_of_shownEntries : ∀ (entries : List (Value × Value)) (enclosing : List String)
    {parts : List String}, shownEntries enclosing entries = .ok parts →
      everywhereEntries hasText (fun _ _ => true) entries = true
  | [], _, _ => fun _ => rfl
  | (k, v) :: rest, enclosing, parts => by
    intro h
    simp only [shownEntries, Attempt.bind_eq_ok] at h
    obtain ⟨key, hk, value, hv, others, hrest, -⟩ := h
    have hkey := isShort_of_shownIn k _ hk
    have hvalue := isShort_of_shownIn v _ hv
    simp only [isShort] at hkey hvalue
    simp only [everywhereEntries, hkey, hvalue, isShort_of_shownEntries rest _ hrest, Bool.and_self]

end

theorem isShort_of_shown {v : Value} {s : String} (h : v.shown = .ok s) : v.isShort = true :=
  isShort_of_shownIn v [] h

theorem isShort_of_plain {v : Value} {s : String} (h : v.plain = .ok s) : v.isShort = true := by
  unfold plain at h
  split at h
  case h_7 => exact isShort_of_shown h
  all_goals rfl

/-! ## Compact text -/

theorem isShort_of_compactKey {k : Value} {s : String} (h : compactKey k = some s) :
    k.isShort = true := by
  unfold compactKey at h
  split at h
  case h_3 n => simp [isShort, everywhere, hasText, h]
  case h_8 => cases h
  all_goals rfl

mutual

theorem isShort_of_compact? : ∀ (v : Value) {s : String}, compact? v = some s → v.isShort = true
  | .list items, s | .tuple items, s => by
    intro h
    simp only [compact?, Option.bind_eq_bind, Option.bind_eq_some_iff] at h
    obtain ⟨parts, h, -⟩ := h
    simpa only [isShort, everywhere, Bool.true_and] using isShort_of_compactAll? items h
  | .map entries, s => by
    intro h
    simp only [compact?, Option.bind_eq_bind, Option.bind_eq_some_iff] at h
    obtain ⟨parts, h, -⟩ := h
    simpa only [isShort, everywhere, Bool.true_and] using isShort_of_compactEntries? entries h
  | .int n, s => by
    intro h
    simp only [compact?] at h
    simp [isShort, everywhere, hasText, h]
  | .set items, s => by
    intro h
    simp only [compact?, Option.map_eq_some_iff] at h
    obtain ⟨text, h, -⟩ := h
    cases hp : (Value.set items).plain with
    | ok t => exact isShort_of_plain hp
    | error e =>
      rw [hp] at h
      cases h
  | .up _, _ | .missing, _ | .null, _ | .bool _, _ | .float _, _ | .nan _, _
  | .text _, _ | .bytes _, _ | .moment _, _ | .date _, _ | .time _, _
  | .pattern _, _ | .mode _, _ | .type _, _ | .object _, _ | .function _, _
  | .validator _ _ _, _ => fun _ => rfl

theorem isShort_of_compactAll? : ∀ (items : List Value) {parts : List String},
    compactAll? items = some parts → everywhereAll hasText (fun _ _ => true) items = true
  | [], _ => fun _ => rfl
  | v :: rest, parts => by
    intro h
    simp only [compactAll?, Option.bind_eq_bind, Option.bind_eq_some_iff] at h
    obtain ⟨first, hv, others, hrest, -⟩ := h
    have hfirst := isShort_of_compact? v hv
    simp only [isShort] at hfirst
    simp only [everywhereAll, hfirst, isShort_of_compactAll? rest hrest, Bool.and_self]

theorem isShort_of_compactEntries? : ∀ (entries : List (Value × Value)) {parts : List String},
    compactEntries? entries = some parts →
    everywhereEntries hasText (fun _ _ => true) entries = true
  | [], _ => fun _ => rfl
  | (k, v) :: rest, parts => by
    intro h
    simp only [compactEntries?, Option.bind_eq_bind, Option.bind_eq_some_iff] at h
    obtain ⟨key, hk, value, hv, others, hrest, -⟩ := h
    have hkey := isShort_of_compactKey hk
    have hvalue := isShort_of_compact? v hv
    simp only [isShort] at hkey hvalue
    simp only [everywhereEntries, hkey, hvalue, isShort_of_compactEntries? rest hrest,
      Bool.and_self]

end

theorem isShort_of_formatMap {v : Value} {s : String} (h : v.formatMap = .ok s) :
    v.isShort = true := by
  unfold formatMap at h
  split at h
  · next hc => exact isShort_of_compact? v hc
  · exact isShort_of_shown h

/-! ## Parts -/

theorem isShort_of_mapChildren {v : Value} {f : Nat → Value → Value}
    (h : (v.mapChildren f).isShort = true)
    (hf : ∀ i u, v.child? i = some u → (f i u).isShort = true → u.isShort = true) :
    v.isShort = true := by
  cases v with
  | list items | tuple items | set items =>
    simp only [isShort, mapChildren, everywhere, Bool.true_and, everywhereAll_iff] at h ⊢
    intro u hu
    obtain ⟨i, hi⟩ := List.mem_iff_getElem?.1 hu
    refine hf i u hi (h _ (List.mem_mapIdx.2 ?_))
    obtain ⟨hlt, rfl⟩ := List.getElem?_eq_some_iff.1 hi
    exact ⟨i, hlt, rfl⟩
  | map entries =>
    simp only [isShort, mapChildren, everywhere, Bool.true_and, everywhereEntries_iff] at h ⊢
    intro e he
    obtain ⟨i, hi⟩ := List.mem_iff_getElem?.1 he
    have hmem : (e.1, f i e.2) ∈ entries.mapIdx fun i e => (e.1, f i e.2) := by
      obtain ⟨hlt, rfl⟩ := List.getElem?_eq_some_iff.1 hi
      exact List.mem_mapIdx.2 ⟨i, hlt, rfl⟩
    exact ⟨(h _ hmem).1, hf i e.2 (by simp [child?, hi]) (h _ hmem).2⟩
  | _ => exact h

/-- On the way down a walk comes to no place that it is inside of. -/
theorem idxOf?_child {around : List Place} {place : Place}
    (h : ∀ outer ∈ around, outer.length ≤ place.length) (i : Nat) :
    (place :: around).idxOf? (place ++ [i]) = none := by
  rw [List.idxOf?_eq_none_iff]
  intro hmem
  rcases List.mem_cons.1 hmem with heq | hmem
  · simpa using congrArg List.length heq
  · have hle := h _ hmem
    rw [List.length_append, List.length_singleton] at hle
    exact Nat.not_succ_le_self _ hle

theorem length_le_child {around : List Place} {place : Place}
    (h : ∀ outer ∈ around, outer.length ≤ place.length) (i : Nat) :
    ∀ outer ∈ place :: around, outer.length ≤ (place ++ [i]).length := by
  intro outer houter
  rw [List.length_append, List.length_singleton]
  rcases List.mem_cons.1 houter with rfl | houter
  · exact Nat.le_succ _
  · exact Nat.le_succ_of_le (h outer houter)

/-- Unfolding leaves out nothing that stands below the place it begins at: on the way down it comes
back to no place that it is inside of, and the whole has nodes enough. -/
theorem isShort_of_unfold {whole : Value} : ∀ (fuel : Nat) (around : List Place) (place : Place)
    {v : Value}, whole.at? place = some v → v.nodes ≤ fuel →
      (∀ outer ∈ around, outer.length ≤ place.length) →
      (unfold whole fuel around place).isShort = true → v.isShort = true
  | 0, _, _, v, _, hfuel, _, _ => absurd v.nodes_pos (by omega)
  | fuel + 1, around, place, v, hat, hfuel, haround, h => by
    unfold unfold at h
    rw [hat] at h
    refine isShort_of_mapChildren h fun i u hu hmet => ?_
    have hat' : whole.at? (place ++ [i]) = some u := by
      rw [at?_append, hat]
      exact hu
    have hnew := idxOf?_child haround i
    by_cases hclosed : u.isClosed = true
    · simpa only [hclosed, ↓reduceIte] using hmet
    · simp only [hclosed, Bool.false_eq_true, ↓reduceIte] at hmet
      have hnodes := nodes_child? hu
      have hbelow := length_le_child haround i
      cases u with
      | up n => rfl
      | _ =>
        simp only [hnew] at hmet
        exact isShort_of_unfold fuel _ _ hat' (by omega) hbelow hmet

theorem isShort_of_takenOut {whole v : Value} {place : Place} (hat : whole.at? place = some v)
    (h : (whole.takenOut place v).isShort = true) : v.isShort = true := by
  unfold takenOut at h
  split at h
  · exact h
  · split at h
    · rfl
    · exact isShort_of_unfold _ [] _ hat (nodes_at? hat) (by simp) h

/-! ## Text in messages -/

/-- Whether a message can show a value. -/
def isShowable (v : Value) : Bool := v.isShort && v.isJoined

theorem isShowable_iff {v : Value} : v.isShowable = true ↔ v.isShort = true ∧ v.isJoined = true :=
  Bool.and_eq_true_iff

theorem isShowable_of_isWritable {v : Value} (h : v.isWritable = true) : v.isShowable = true := by
  obtain ⟨hshort, hjoined, -⟩ := isWritable_cases v h
  exact isShowable_iff.2 ⟨hshort, hjoined⟩

theorem Spoils.isShowable {v : Value} {e : Fault} (h : v.Spoils e) : v.isShowable = false := by
  rcases h with ⟨-, hlong⟩ | ⟨-, hapart⟩
  · rw [Value.isShowable, hlong, Bool.false_and]
  · rw [Value.isShowable, hapart, Bool.and_false]

/-- What becomes of a pattern that is written in bytes is no text. -/
theorem formatAt_of_isBytesPattern (whole : Value) (place : Place) {v : Value}
    (h : v.isBytesPattern = true) :
    ∃ bs, formatAt whole place v = .ok (.bytes bs) := by
  unfold isBytesPattern at h
  split at h
  · exact ⟨_, by rw [formatAt, formatAtom, Formatted.ofSource] <;> nofun⟩
  · cases h

mutual

theorem shows_of_formatAt {whole : Value} : ∀ (v : Value) (place : Place) {f : Formatted},
    whole.at? place = some v → formatAt whole place v = .ok f → v.isShort = true ∧ v.isJoined = true
  | .list items, place, f | .tuple items, place, f | .set items, place, f => by
    intro hat h
    simp only [formatAt, Attempt.bind_eq_ok] at h
    obtain ⟨parts, hparts, texts, htexts, -⟩ := h
    have hitems : ∀ k, whole.at? (place ++ [0 + k]) = items[k]? := by
      intro k
      rw [at?_append, hat, Nat.zero_add]
      rfl
    obtain ⟨hshort, hjoined⟩ :=
      shows_of_formatAll items place 0 hitems hparts (Formatted.texts_ok htexts)
    exact ⟨by simpa only [isShort, everywhere, Bool.true_and] using hshort, hjoined⟩
  | .map entries, place, f => by
    intro hat h
    simp only [formatAt] at h
    obtain ⟨s, h, -⟩ := Attempt.bind_eq_ok.1 h
    exact ⟨isShort_of_takenOut hat (isShort_of_formatMap h), rfl⟩
  | .int n, place, f => by
    intro _ h
    simp only [formatAt, formatAtom] at h
    obtain ⟨s, h, -⟩ := Attempt.bind_eq_ok.1 h
    exact ⟨isShort_of_plain h, rfl⟩
  | .up _, _, _ | .missing, _, _ | .null, _, _ | .bool _, _, _ | .float _, _, _ | .nan _, _, _
  | .text _, _, _ | .bytes _, _, _ | .moment _, _, _ | .date _, _, _ | .time _, _, _
  | .pattern _, _, _ | .mode _, _, _ | .type _, _, _ | .object _, _, _ | .function _, _, _
  | .validator _ _ _, _, _ => fun _ _ => ⟨rfl, rfl⟩

theorem shows_of_formatAll {whole : Value} : ∀ (items : List Value) (place : Place) (i : Nat)
    {parts : List Formatted}, (∀ k, whole.at? (place ++ [i + k]) = items[k]?) →
      formatAll whole place i items = .ok parts → (∀ bs, Formatted.bytes bs ∉ parts) →
        everywhereAll hasText (fun _ _ => true) items = true ∧ areJoined items = true
  | [], _, _, _ => fun _ _ _ => ⟨rfl, rfl⟩
  | v :: rest, place, i, parts => by
    intro hitems h hparts
    simp only [formatAll, Attempt.bind_eq_ok] at h
    obtain ⟨first, hv, others, hrest, h⟩ := h
    cases h
    obtain ⟨hshort, hjoined⟩ := shows_of_formatAt v _ (hitems 0) hv
    obtain ⟨hshorts, hjoineds⟩ := shows_of_formatAll rest place (i + 1) (fun k => by
      rw [Nat.add_right_comm]
      exact hitems (k + 1)) hrest fun bs hbs => hparts bs (List.mem_cons_of_mem _ hbs)
    have hpattern : v.isBytesPattern = false := by
      refine Bool.eq_false_iff.2 fun hbytes => ?_
      obtain ⟨bs, hbs⟩ := formatAt_of_isBytesPattern whole (place ++ [i]) hbytes
      cases hbs.symm.trans hv
      exact hparts bs List.mem_cons_self
    simp only [isShort] at hshort
    simp only [everywhereAll, areJoined, hshort, hshorts, hpattern, hjoined,
      hjoineds, Bool.and_self, Bool.not_false, and_self]

end

/-- Nothing of a value is left out of what becomes of it. -/
theorem isShowable_of_formatted {v : Value} {f : Formatted} (h : v.formatted = .ok f) :
    v.isShowable = true := isShowable_iff.2 (shows_of_formatAt v [] rfl h)

theorem formatted_ok_iff {v : Value} : (∃ f, v.formatted = .ok f) ↔ v.isShowable = true := by
  refine ⟨fun ⟨_, h⟩ => isShowable_of_formatted h, fun hs => ?_⟩
  cases h : v.formatted with
  | ok f => exact ⟨f, rfl⟩
  | error e =>
    rw [(formatted_error h).isShowable] at hs
    cases hs

theorem format_ok_iff {v : Value} : (∃ s, v.format = .ok s) ↔ v.isShowable = true := by
  rw [← formatted_ok_iff]
  constructor
  · rintro ⟨s, h⟩
    obtain ⟨f, hf, -⟩ := Attempt.bind_eq_ok.1 h
    exact ⟨f, hf⟩
  · rintro ⟨f, hf⟩
    exact ⟨f.shown, by rw [format, hf]; rfl⟩

/-- A value becomes a text just where it can be shown and is not itself a pattern in bytes. -/
theorem formatted_text_iff {v : Value} :
    (∃ s, v.formatted = .ok (.text s)) ↔ v.isShowable = true ∧ v.isBytesPattern = false := by
  constructor
  · rintro ⟨s, h⟩
    refine ⟨isShowable_of_formatted h, Bool.eq_false_iff.2 fun hbytes => ?_⟩
    obtain ⟨bs, hbs⟩ := formatAt_of_isBytesPattern v [] hbytes
    cases hbs.symm.trans h
  · rintro ⟨hs, hpattern⟩
    obtain ⟨f, hf⟩ := formatted_ok_iff.2 hs
    cases f with
    | text s => exact ⟨s, hf⟩
    | bytes bs =>
      rw [formatAt_eq_bytes hf] at hpattern
      cases hpattern

/-- A template is filled only if it is a text, and all variables can be shown, those too that it
does not name. -/
theorem shows_of_render {template : Value} {bindings : List (String × Value)} {s : String}
    (h : render template bindings = .ok s) :
    template.isTemplate = true ∧ ∀ b ∈ bindings, b.2.isShowable = true := by
  obtain ⟨texts, htexts, h⟩ := Attempt.bind_eq_ok.1 h
  refine ⟨?_, fun b hb => ?_⟩
  · obtain ⟨text, htext, -⟩ := Attempt.bind_eq_ok.1 h
    unfold templateText at htext
    split at htext
    · next ht => rw [isTemplate, ht, Option.isSome_some]
    all_goals cases htext
  · obtain ⟨text, htext⟩ := Attempt.exists_of_mapM_eq_ok htexts b hb
    obtain ⟨t, ht, -⟩ := Attempt.bind_eq_ok.1 htext
    exact format_ok_iff.1 ⟨t, ht⟩

theorem isShowable_int {n : Int} : (Value.int n).isShowable = (Value.int n).isWritable := by
  simp [isShowable, isShort, isJoined, isWritable, everywhere, isBytesPattern]

end Value

/-! ## Failures -/

/-- What a notice can name can be shown. -/
def Notice.IsShowable (n : Notice) : Prop := ∀ b ∈ n.named, b.2.isShowable = true

/-- A trail is written only if all its segments can be written. -/
theorem Trail.isShort_of_text {trail : Trail} {s : String} (h : trail.text = .ok s) :
    ∀ segment ∈ trail, segment.isShort = true := by
  have step : ∀ (trail : Trail) (written : String), trail.foldlM extend written = .ok s →
      ∀ segment ∈ trail, segment.isShort = true := by
    intro trail
    induction trail with
    | nil => exact fun _ _ => nofun
    | cons first rest ih =>
      intro written h segment hsegment
      rw [List.foldlM_cons] at h
      obtain ⟨written', hfirst, h⟩ := Attempt.bind_eq_ok.1 h
      rcases List.mem_cons.1 hsegment with rfl | hsegment
      · obtain ⟨text, htext, -⟩ := Attempt.bind_eq_ok.1 hfirst
        exact Value.isShort_of_plain htext
      · exact ih written' h segment hsegment
  exact step trail "" h

/-- What a notice needs to be worded: a text for a template, and a trail and a context that can be
shown. -/
structure Notice.IsSayable (n : Notice) : Prop where
  template : n.template.isTemplate = true
  trail : ∀ segment ∈ n.trail, segment.isShort = true
  named : n.IsShowable

/-- A notice is worded just where it can be, with a number of parts that can be written. -/
theorem Notice.worded_ok_iff {n : Notice} {count : Nat} :
    (∃ s, n.worded count = .ok s) ↔ n.IsSayable ∧ (Value.int count).isWritable = true := by
  constructor
  · rintro ⟨s, h⟩
    obtain ⟨bindings, hb, h⟩ := Attempt.bind_eq_ok.1 h
    obtain ⟨path, hpath, hb⟩ := Attempt.bind_eq_ok.1 hb
    cases hb
    obtain ⟨ht, hall⟩ := Value.shows_of_render h
    have hcount := hall ("count", .int count) (List.mem_append_left _ (by simp))
    rw [Value.isShowable_int] at hcount
    exact ⟨⟨ht, Trail.isShort_of_text hpath, fun b hb => hall b (List.mem_append_right _ hb)⟩,
      hcount⟩
  · rintro ⟨hn, hc⟩
    cases h : n.worded count with
    | ok s => exact ⟨s, rfl⟩
    | error e =>
      rcases worded_error hn.template h with ⟨-, ⟨segment, hsegment, hlong⟩ | hlong⟩ |
        ⟨b, hb, hspoils⟩
      · cases (hn.trail segment hsegment).symm.trans hlong
      · cases hc.symm.trans hlong
      · cases (hn.named b hb).symm.trans hspoils.isShowable

namespace Failure

/-- A failure can be made just where all that it can name can be shown. -/
theorem make_ok_iff {p : Notice.Parts} (ht : p.IsTyped) (children : List Failure) :
    (∃ f, make p children = .ok f) ↔
      p.head.IsShowable ∧ (Value.int children.length).isWritable = true := by
  obtain ⟨hnotice, htemplate⟩ := Notice.Parts.notice_eq ht
  unfold make
  rw [hnotice, Attempt.ok_bind]
  constructor
  · rintro ⟨f, h⟩
    obtain ⟨n, h, -⟩ := Attempt.bind_eq_ok.1 h
    obtain ⟨s, h, -⟩ := Attempt.bind_eq_ok.1 h
    obtain ⟨hn, hc⟩ := Notice.worded_ok_iff.1 ⟨s, h⟩
    exact ⟨hn.named, hc⟩
  · rintro ⟨hshown, hc⟩
    obtain ⟨s, hs⟩ := Notice.worded_ok_iff.2 ⟨⟨htemplate, nofun, hshown⟩, hc⟩
    exact ⟨_, by rw [Notice.refresh, hs]; rfl⟩

end Failure

/-- A failure without parts that cannot be made has something to name that cannot be shown. -/
theorem Failure.make_spoiled {p : Notice.Parts} {e : Fault} (ht : p.IsTyped)
    (h : make p [] = .error e) :
    ∃ b ∈ p.context, b.2.Spoils e := by
  obtain ⟨hnotice, htemplate⟩ := Notice.Parts.notice_eq ht
  unfold make at h
  rw [hnotice, Attempt.ok_bind] at h
  rcases Attempt.bind_eq_error.1 h with h | ⟨_, _, h⟩
  · rcases Attempt.bind_eq_error.1 h with h | ⟨_, _, h⟩
    · rcases Notice.worded_error htemplate h with ⟨-, ⟨segment, hsegment, -⟩ | hlong⟩ |
        ⟨b, hb, hspoils⟩
      · cases hsegment
      · cases Value.isWritable_zero.symm.trans hlong
      · exact ⟨b, Notice.mem_context_of_named hb, hspoils⟩
    · cases h
  · cases h

theorem Raised.fail_iff {p : Notice.Parts} (ht : p.IsTyped) :
    ((∃ f, fail p = .failure f) ↔ p.head.IsShowable) := by
  have hmake := Failure.make_ok_iff ht []
  unfold fail
  cases h : Failure.make p [] with
  | ok f =>
    exact ⟨fun _ => (hmake.1 ⟨f, h⟩).1, fun _ => ⟨f, rfl⟩⟩
  | error e =>
    refine ⟨fun ⟨_, hf⟩ => (nomatch hf), fun hshown => ?_⟩
    obtain ⟨f, hf⟩ := hmake.2 ⟨hshown, Value.isWritable_zero⟩
    cases h.symm.trans hf

/-- Of what the failure of a value of the wrong kind names, only the value itself may be trouble. -/
theorem Kind.misfit_isShowable {kind : Kind} {message v : Value} :
    (kind.misfit message v).head.IsShowable ↔ v.isShowable = true := by
  constructor
  · intro h
    by_cases hm : v.isMissing = true
    · unfold Value.isMissing at hm
      split at hm
      · rfl
      · cases hm
    · refine h ("got", v) (List.mem_filter.2 ⟨?_, rfl⟩)
      simp [Notice.Parts.head, Notice.Parts.context, misfit, Notice.Parts.unlessMissing, hm]
  · intro hv b hb
    rcases Notice.Parts.mem_context (Notice.mem_context_of_named hb) with hb | hb | hb | hb | hb
    · rw [List.mem_singleton.1 hb]
      rfl
    · rw [hb]
      exact hv
    all_goals
      rw [hb]
      rfl

/-- What is raised about a value of the wrong kind is a failure just where the value can be shown,
and none if it is a number of a type of its own that is read as a date. -/
theorem Kind.coerce_error {kind : Kind} {message v : Value} {r : Raised}
    (hm : message.isMessage = true) (h : kind.coerce message v = .error r) :
    (∃ f, r = .failure f) ↔ v.isShowable = true ∧ isReadable (some kind) v = true := by
  unfold coerce at h
  split at h
  · cases h
  · next hnone =>
    cases h
    have hreadable : isReadable (some kind) v = true := by
      refine Bool.not_eq_false _ ▸ fun hunreadable => ?_
      obtain ⟨type, ht⟩ := accepts?_unreadable hunreadable
      cases hnone.symm.trans ht
    rw [wrongKind_eq, Raised.fail_iff (kind.misfit_isTyped hm), misfit_isShowable]
    exact ⟨fun hv => ⟨hv, hreadable⟩, fun hv => hv.1⟩
  · next e he =>
    cases h
    refine ⟨fun ⟨_, hf⟩ => (nomatch hf), fun ⟨hshown, hreadable⟩ => ?_⟩
    rcases accepts?_error he with ⟨-, hlong⟩ | hunreadable
    · rw [(Value.isShowable_iff.1 hshown).1] at hlong
      cases hlong
    · rw [hreadable] at hunreadable
      cases hunreadable

/-- Other trouble with a value of the wrong kind comes from showing it, or from reading it as a
date. -/
theorem Kind.coerce_fault {kind : Kind} {message v : Value} {e : Fault}
    (hm : message.isMessage = true) (h : kind.coerce message v = .error (.fault e)) :
    v.Spoils e ∨ isReadable (some kind) v = false := by
  unfold coerce at h
  split at h
  · cases h
  · have h := Except.error.inj h
    rw [wrongKind_eq] at h
    unfold Raised.fail at h
    cases hmake : Failure.make (kind.misfit message v) [] with
    | ok f =>
      rw [hmake] at h
      cases h
    | error e' =>
      rw [hmake] at h
      cases h
      obtain ⟨b, hb, hspoils⟩ := Failure.make_spoiled (kind.misfit_isTyped hm) hmake
      rcases Notice.Parts.mem_context hb with hb | hb | hb | hb | hb
      · rw [List.mem_singleton.1 hb] at hspoils
        cases hspoils.isWritable
      · rw [hb] at hspoils
        exact .inl hspoils
      all_goals
        rw [hb] at hspoils
        cases hspoils.isWritable
  · next he =>
    cases h
    exact (accepts?_error he).imp_left .inl

/-! ## What cannot be shown -/

/-- Values become texts, failures are made, and what a kind does not accept is a failure, just where
all integers in what is shown can be written and where what stands in sequences can be joined. But a
pattern in bytes becomes bytes, and a number of a type of its own cannot be read as a date. -/
theorem renders_iff_isShowable (v : Value) {p : Notice.Parts}
    (children : List Failure) (ht : p.IsTyped) (kind : Kind) {message : Value}
    (hm : message.isMessage = true) :
    (((∃ s, v.formatted = .ok (.text s)) ↔ v.isShowable = true ∧ v.isBytesPattern = false) ∧
      ∀ e, v.formatted = .error e → v.Spoils e) ∧
    (((∃ f, Failure.make p children = .ok f) ↔
        p.head.IsShowable ∧ (Value.int children.length).isWritable = true) ∧
      ∀ e, Failure.make p children = .error e → e.IsUnwritable) ∧
    ∀ r, kind.coerce message v = .error r →
      ((∃ f, r = .failure f) ↔ v.isShowable = true ∧ Kind.isReadable (some kind) v = true) ∧
      ∀ e, r = .fault e → v.Spoils e ∨ Kind.isReadable (some kind) v = false := by
  refine ⟨⟨Value.formatted_text_iff, fun _ => Value.formatted_error⟩,
    ⟨Failure.make_ok_iff ht children, fun _ he => (Failure.make_error ht he).1⟩, fun r hr => ?_⟩
  refine ⟨Kind.coerce_error hm hr, fun e he => ?_⟩
  rw [he] at hr
  exact Kind.coerce_fault hm hr

/-- A map that holds itself under a tuple, and the failure that says that it is no text. -/
theorem renders_iff_isShowable_cyclic :
    let v := Value.map [(.tuple [.int 1], .up 0)]
    let p : Notice.Parts := { template := .text "${got}", got := v, comparison := .text "type" }
    p.IsTyped ∧ Value.isMessage .null = true ∧ (∃ s, v.formatted = .ok (.text s)) ∧
      (∃ f, Failure.make p [] = .ok f) ∧ ∃ f, Kind.string.coerce .null v = .error (.failure f) := by
  intro v p
  have ht : p.IsTyped := ⟨rfl, .inl rfl⟩
  have hv : v.isWritable = true := by decide +kernel
  have hshown : v.isShowable = true := Value.isShowable_of_isWritable hv
  have hp : p.head.IsShowable := by
    intro b hb
    rcases Notice.Parts.mem_context (Notice.mem_context_of_named hb) with hb | hb | hb | hb | hb
    · cases hb
    · rw [hb]
      exact hshown
    all_goals
      rw [hb]
      rfl
  have hr : Kind.string.coerce .null v = .error (wrongKind .string .null v) := rfl
  have hm : Value.isMessage .null = true := rfl
  have h := renders_iff_isShowable v [] ht .string hm
  obtain ⟨f, hf⟩ := (h.2.2 _ hr).1.2 ⟨hshown, rfl⟩
  exact ⟨ht, hm, h.1.1.2 ⟨hshown, rfl⟩, h.2.1.1.2 ⟨hp, Value.isWritable_zero⟩, f, by rw [hr, hf]⟩

/-- What cannot be shown has no text, and no failure says that it is no text either: the least
integer that is too long, and a list of a pattern in bytes. -/
theorem not_renders :
    let unshown := fun v : Value => (∀ s, v.format ≠ .ok s) ∧
      ∀ f, Kind.string.coerce .null v ≠ .error (.failure f)
    unshown (.int (.ofNat (Nat.pow 10 Number.digitLimit))) ∧
      unshown (.list [.pattern ⟨.bytes [120], .default, .empty, 0⟩]) := by
  intro unshown
  have of_not_isShowable : ∀ v : Value, v.isShowable = false → unshown v := by
    intro v hv
    refine ⟨fun s hs => ?_, fun f hf => ?_⟩
    · rw [Value.format_ok_iff.1 ⟨s, hs⟩] at hv
      cases hv
    · rw [((Kind.coerce_error rfl hf).1 ⟨f, rfl⟩).1] at hv
      cases hv
  have reached : ∀ limit, ¬ (Int.ofNat (Nat.pow 10 limit)).natAbs < Nat.pow 10 limit :=
    fun _ => Nat.lt_irrefl _
  refine ⟨of_not_isShowable _ ?_, of_not_isShowable _ rfl⟩
  rw [Value.isShowable_int]
  exact Bool.eq_false_iff.2 fun h => reached _ (Value.isWritable_int.1 h)

end Attest
