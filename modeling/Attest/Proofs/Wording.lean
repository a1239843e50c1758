import Attest.Proofs.Rendering
import Attest.Raised

/-!
# Wording

Failures that can be worded, and what becomes of them when they are made, moved and put together. A
failure is writable if its template is a text and all that it shows, in it and below it, can be
written. Such a failure is worded without trouble wherever it goes.

* `under_eq`, `located_eq`, `addChild_eq`: moving a failure, and hanging it below another one.
* `make_eq`: a failure from writable parts.
* `promote_eq`: a failure in the place of other trouble.
-/

namespace Attest

/-! ## Notices -/

namespace Notice

/-- What a notice says with `count` parts; nothing where it cannot be worded. -/
def said (n : Notice) (count : Nat) : String := (n.worded count).toOption.getD ""

/-- Whether a notice can be worded: its template is a text, and all that it shows can be written. -/
def isWritable (n : Notice) : Bool :=
  n.template.isTemplate && n.context.all (·.2.isWritable) && n.trail.all Value.isWritable

/-- A notice that cannot be worded shows what cannot be written: a segment of its trail, the number
of parts or a part of its context. -/
theorem worded_error {n : Notice} {count : Nat} {e : Fault} (ht : n.template.isTemplate = true)
    (h : n.worded count = .error e) :
    e = .tooManyDigits ∧
    ((∃ s ∈ n.trail, s.isShort = false) ∨ (Value.int count).isWritable = false) ∨
      ∃ b ∈ n.named, b.2.Spoils e := by
  unfold worded bindings at h
  rcases Attempt.bind_eq_error.1 h with h | ⟨bindings, hb, h⟩
  · rcases Attempt.bind_eq_error.1 h with h | ⟨_, _, h⟩
    · obtain ⟨he, s, hs, hsw⟩ := Trail.text_error h
      exact .inl ⟨he, .inl ⟨s, hs, hsw⟩⟩
    · cases h
  · obtain ⟨⟨name, v⟩, hv, hspoils⟩ := Value.render_error ht h
    obtain ⟨path, -, hb⟩ := Attempt.bind_eq_ok.1 hb
    cases hb
    simp only [List.mem_append, List.mem_cons, Prod.mk.injEq, List.not_mem_nil, or_false] at hv
    rcases hv with (⟨-, rfl⟩ | ⟨-, rfl⟩) | hv
    · cases hspoils.isWritable
    · exact .inl ⟨hspoils.eq_tooManyDigits rfl, .inr hspoils.isWritable⟩
    · exact .inr ⟨_, hv, hspoils⟩

theorem mem_context_of_named {n : Notice} {b : String × Value} (h : b ∈ n.named) : b ∈ n.context :=
  (List.mem_filter.1 h).1

theorem worded_error_isUnwritable {n : Notice} {count : Nat} {e : Fault}
    (ht : n.template.isTemplate = true) (h : n.worded count = .error e) : e.IsUnwritable := by
  rcases worded_error ht h with ⟨he, -⟩ | ⟨b, -, hb⟩
  · exact .inl he
  · exact hb.isUnwritable

theorem worded_eq {n : Notice} {count : Nat} (hn : n.isWritable = true)
    (hc : (Value.int count).isWritable = true) : n.worded count = .ok (n.said count) := by
  have ht : n.template.isTemplate = true := by
    simp only [isWritable, Bool.and_eq_true] at hn
    exact hn.1.1
  unfold said
  cases h : n.worded count with
  | ok s => rfl
  | error e =>
    simp only [isWritable, Bool.and_eq_true, List.all_eq_true] at hn
    rcases worded_error ht h with ⟨-, ⟨s, hs, hsw⟩ | hlong⟩ | ⟨b, hb, hspoils⟩
    · cases (hn.2 s hs).symm.trans (Value.isWritable_eq_false_of_isShort hsw)
    · rw [hc] at hlong
      cases hlong
    · have hbw := hn.1.2 b (mem_context_of_named hb)
      rw [hspoils.isWritable] at hbw
      cases hbw

theorem under_isWritable {n : Notice} {outer : Trail} (hn : n.isWritable = true)
    (ho : outer.all Value.isWritable = true) : (n.under outer).isWritable = true := by
  simp only [isWritable, under, List.all_append, Bool.and_eq_true] at hn ⊢
  exact ⟨hn.1, ho, hn.2⟩

theorem withKey_isWritable {n : Notice} {key : Value} (hn : n.isWritable = true)
    (hk : key.isWritable = true) : (n.withKey key).isWritable = true := by
  unfold withKey
  split
  · exact hn
  · simp only [isWritable, Bool.and_eq_true, List.all_append] at hn ⊢
    exact ⟨⟨hn.1.1, hn.1.2, by simpa using hk⟩, hn.2⟩

end Notice

/-! ## Failures -/

namespace Failure

/-- The failure of a notice with parts, worded. -/
def worded (n : Notice) (children : List Failure) : Failure :=
  mk { n with message := n.said children.length } children

mutual

/-- Whether a failure and all below it can be worded, the numbers of parts included. -/
def isWritable : Failure → Bool
  | mk n children => n.isWritable && (Value.int children.length).isWritable && areWritable children

def areWritable : List Failure → Bool
  | [] => true
  | f :: rest => isWritable f && areWritable rest

end

mutual

/-- A failure under an outer trail, it and all below it worded anew. -/
def moved (outer : Trail) : Failure → Failure
  | mk n children => worded (n.under outer) (movedAll outer children)

def movedAll (outer : Trail) : List Failure → List Failure
  | [] => []
  | f :: rest => moved outer f :: movedAll outer rest

end

/-- A failure as the part of a whole at a segment; the null segment is no place. -/
def placed (segment : Value) (f : Failure) : Failure :=
  match segment with
  | .null => f
  | _ => (mk (f.notice.withKey segment) f.children).moved [segment]

theorem areWritable_iff : ∀ {fs : List Failure},
    areWritable fs = true ↔ ∀ f ∈ fs, f.isWritable = true
  | [] => by simp [areWritable]
  | f :: rest => by simp [areWritable, @areWritable_iff rest]

theorem movedAll_eq_map (outer : Trail) :
    ∀ fs : List Failure, movedAll outer fs = fs.map (moved outer)
  | [] => rfl
  | f :: rest => by rw [movedAll, movedAll_eq_map outer rest, List.map_cons]

theorem isWritable_mk {n : Notice} {children : List Failure} :
    (mk n children).isWritable = true ↔ n.isWritable = true ∧
      (Value.int children.length).isWritable = true ∧ ∀ f ∈ children, f.isWritable = true := by
  simp only [isWritable, Bool.and_eq_true, areWritable_iff, and_assoc]

theorem worded_isWritable {n : Notice} {children : List Failure} (hn : n.isWritable = true)
    (hc : (Value.int children.length).isWritable = true)
    (h : ∀ f ∈ children, f.isWritable = true) : (worded n children).isWritable = true :=
  isWritable_mk.2 ⟨hn, hc, h⟩

/-! ## Making and moving -/

mutual

theorem under_eq {outer : Trail} (ho : outer.all Value.isWritable = true) : ∀ (f : Failure),
    f.isWritable = true → f.under outer = .ok (f.moved outer) ∧ (f.moved outer).isWritable = true
  | mk n children => by
    intro hf
    obtain ⟨hn, hc, hcs⟩ := isWritable_mk.1 hf
    obtain ⟨hall, hw⟩ := underAll_eq ho children (areWritable_iff.2 hcs)
    have hn' := Notice.under_isWritable hn ho
    have hlen : (movedAll outer children).length = children.length := by simp [movedAll_eq_map]
    refine ⟨?_, worded_isWritable hn' (by rw [hlen]; exact hc) (areWritable_iff.1 hw)⟩
    simp only [under, Notice.refresh, Notice.worded_eq hn' hc, hall, Attempt.ok_bind, moved,
      worded, hlen]
    rfl

theorem underAll_eq {outer : Trail} (ho : outer.all Value.isWritable = true) :
    ∀ (fs : List Failure), areWritable fs = true →
      underAll outer fs = .ok (movedAll outer fs) ∧ areWritable (movedAll outer fs) = true
  | [] => fun _ => ⟨rfl, rfl⟩
  | f :: rest => by
    intro h
    simp only [areWritable, Bool.and_eq_true] at h
    obtain ⟨hf, hfw⟩ := under_eq ho f h.1
    obtain ⟨hr, hrw⟩ := underAll_eq ho rest h.2
    refine ⟨?_, by simp [movedAll, areWritable, hfw, hrw]⟩
    simp only [underAll, hf, hr, Attempt.ok_bind, movedAll]
    rfl

end

theorem moved_isWritable {outer : Trail} {f : Failure} (ho : outer.all Value.isWritable = true)
    (hf : f.isWritable = true) : (f.moved outer).isWritable = true := (under_eq ho f hf).2

theorem inside_eq {outer : Trail} {f : Failure} (ho : outer.all Value.isWritable = true)
    (hf : f.isWritable = true) :
    f.inside outer = .ok (if outer.isEmpty then f else f.moved outer) := by
  unfold inside
  split
  · rfl
  · exact (under_eq ho f hf).1

theorem withKey_isWritable {f : Failure} {segment : Value} (hf : f.isWritable = true)
    (hs : segment.isWritable = true) :
    (mk (f.notice.withKey segment) f.children).isWritable = true := by
  obtain ⟨n, children⟩ := f
  obtain ⟨hn, hc, hcs⟩ := isWritable_mk.1 hf
  exact isWritable_mk.2 ⟨Notice.withKey_isWritable hn hs, hc, hcs⟩

theorem placed_isWritable {f : Failure} {segment : Value} (hf : f.isWritable = true)
    (hs : segment.isWritable = true) : (f.placed segment).isWritable = true := by
  unfold placed
  split
  · exact hf
  · have ho : [segment].all Value.isWritable = true := by simpa using hs
    exact moved_isWritable ho (withKey_isWritable hf hs)

theorem located_eq {f : Failure} {segment : Value} (hf : f.isWritable = true)
    (hs : segment.isWritable = true) : f.located segment = .ok (f.placed segment) := by
  have ho : [segment].all Value.isWritable = true := by simpa using hs
  have hunder := (under_eq ho _ (withKey_isWritable hf hs)).1
  cases segment with
  | null => rfl
  | _ => exact hunder

/-- A part more, at its place; the whole is worded anew. -/
theorem addChild_eq {n : Notice} {children : List Failure} {child : Failure} {segment : Value}
    (hn : n.isWritable = true) (hc : (Value.int (children.length + 1 : Nat)).isWritable = true)
    (hf : child.isWritable = true) (hs : segment.isWritable = true) :
    (worded n children).addChild child segment =
      .ok (worded n (children ++ [child.placed segment])) := by
  have hn' : { n with message := n.said children.length }.isWritable = true := hn
  simp only [addChild, located_eq hf hs, worded, Failure.children, Failure.notice,
    Notice.refresh, Attempt.ok_bind, List.length_append, List.length_singleton,
    Notice.worded_eq hn' hc]
  rfl

end Failure

/-! ## Failures from their parts -/

namespace Notice.Parts

/-- Parts without a trail from which a template comes, be it the given one or the default. -/
structure IsTyped (p : Parts) : Prop where
  path : p.path = .list []
  template : p.template.isTemplate = true ∨ p.template = .null ∧ p.comparison.isTemplate = true

/-- The template that is given, or the default. -/
def wording (p : Parts) : Value :=
  match p.template? with
  | some v => v
  | none => .text ((defaultTemplate p.got p.expected p.comparison).toOption.getD "")

/-- The notice of parts without a trail. -/
def head (p : Parts) : Notice :=
  { template := p.wording, context := p.context, trail := [], message := "" }

theorem template?_eq {p : Parts} (h : p.template.isTemplate = true) :
    p.template? = some p.template := by
  unfold template?
  split
  · next hnull =>
    rw [hnull] at h
    cases h
  · rfl

theorem isNegated_ok {v : Value} (h : v.isTemplate = true) : ∃ b, isNegated v = .ok b := by
  obtain ⟨s, hs⟩ := Option.isSome_iff_exists.1 h
  unfold isNegated
  split
  · exact ⟨_, by simp only [Value.hasAffix, hs]; rfl⟩
  · exact ⟨false, rfl⟩

theorem notice_eq {p : Parts} (h : p.IsTyped) :
    p.notice = .ok p.head ∧ p.head.template.isTemplate = true := by
  have hpath : p.path.iterate = .ok [] := by rw [h.path]; rfl
  unfold notice head wording
  rcases h.template with ht | ⟨ht, hc⟩
  · rw [template?_eq ht, hpath]
    exact ⟨rfl, ht⟩
  · obtain ⟨b, hb⟩ := isNegated_ok hc
    have : p.template? = none := by simp [template?, ht]
    rw [this, hpath]
    simp only [defaultTemplate, hb]
    exact ⟨rfl, rfl⟩

theorem mem_context {p : Parts} {b : String × Value} (h : b ∈ p.context) :
    b ∈ p.extra ∨ b.2 = p.got ∨ b.2 = p.expected ∨ b.2 = p.comparison ∨ b.2 = p.key := by
  have missing : ∀ {name : String} {v : Value}, b ∈ unlessMissing name v → b.2 = v := by
    intro name v hb
    unfold unlessMissing at hb
    split at hb
    · cases hb
    · rw [List.mem_singleton.1 hb]
  have null : ∀ {name : String} {v : Value}, b ∈ unlessNull name v → b.2 = v := by
    intro name v hb
    unfold unlessNull at hb
    split at hb
    · cases hb
    · rw [List.mem_singleton.1 hb]
  unfold context at h
  simp only [List.mem_append] at h
  rcases h with (((h | h) | h) | h) | h
  · exact .inl h
  · exact .inr (.inl (missing h))
  · exact .inr (.inr (.inl (missing h)))
  · exact .inr (.inr (.inr (.inl (null h))))
  · exact .inr (.inr (.inr (.inr (null h))))

/-- Everything that parts bring into the context can be written. -/
structure AreWritable (p : Parts) : Prop where
  got : p.got.isWritable = true
  expected : p.expected.isWritable = true
  comparison : p.comparison.isWritable = true
  key : p.key.isWritable = true
  extra : ∀ b ∈ p.extra, b.2.isWritable = true

/-- A variable that is a text can be written. -/
theorem isWritable_of_mem_text {name text : String} :
    ∀ b ∈ [(name, Value.text text)], b.2.isWritable = true := by
  intro b hb
  rw [List.mem_singleton.1 hb]
  exact Value.isWritable_text text

theorem context_isWritable {p : Parts} (hw : p.AreWritable) :
    p.context.all (·.2.isWritable) = true := by
  refine List.all_eq_true.2 fun b hb => ?_
  rcases mem_context hb with hb | hb | hb | hb | hb
  · exact hw.extra b hb
  · rw [hb]
    exact hw.got
  · rw [hb]
    exact hw.expected
  · rw [hb]
    exact hw.comparison
  · rw [hb]
    exact hw.key

theorem head_isWritable {p : Parts} (ht : p.IsTyped) (hw : p.AreWritable) :
    p.head.isWritable = true := by
  simp only [Notice.isWritable, Bool.and_eq_true]
  exact ⟨⟨(notice_eq ht).2, context_isWritable hw⟩, rfl⟩

end Notice.Parts

namespace Failure

theorem make_error {p : Notice.Parts} {children : List Failure} {e : Fault} (ht : p.IsTyped)
    (h : make p children = .error e) :
    e.IsUnwritable ∧ ((∀ b ∈ p.context, b.2.isJoined = true) → e = .tooManyDigits) := by
  obtain ⟨hn, htemplate⟩ := Notice.Parts.notice_eq ht
  unfold make at h
  rw [hn, Attempt.ok_bind] at h
  rcases Attempt.bind_eq_error.1 h with h | ⟨_, _, h⟩
  · rcases Attempt.bind_eq_error.1 h with h | ⟨_, _, h⟩
    · refine ⟨Notice.worded_error_isUnwritable htemplate h, fun hjoined => ?_⟩
      rcases Notice.worded_error htemplate h with ⟨he, -⟩ | ⟨b, hb, hspoils⟩
      · exact he
      · exact hspoils.eq_tooManyDigits (hjoined b (Notice.mem_context_of_named hb))
    · cases h
  · cases h

theorem make_eq {p : Notice.Parts} {children : List Failure} (ht : p.IsTyped) (hw : p.AreWritable)
    (hc : (Value.int children.length).isWritable = true) :
    make p children = .ok (worded p.head children) := by
  unfold make
  rw [(Notice.Parts.notice_eq ht).1, Attempt.ok_bind]
  unfold Notice.refresh
  rw [Notice.worded_eq (Notice.Parts.head_isWritable ht hw) hc]
  rfl

/-- A failure that can be made is the one of its notice, worded. -/
theorem make_eq_ok {p : Notice.Parts} {children : List Failure} {f : Failure} (ht : p.IsTyped)
    (h : make p children = .ok f) : f = worded p.head children ∧
      p.head.worded children.length = .ok (p.head.said children.length) := by
  unfold make at h
  rw [(Notice.Parts.notice_eq ht).1, Attempt.ok_bind] at h
  obtain ⟨n, hn, h⟩ := Attempt.bind_eq_ok.1 h
  obtain ⟨said, hsaid, hn⟩ := Attempt.bind_eq_ok.1 hn
  have heq : p.head.said children.length = said := by rw [Notice.said, hsaid]; rfl
  cases hn
  cases h
  rw [worded, heq]
  exact ⟨rfl, hsaid⟩

theorem worded_head_isWritable {p : Notice.Parts} {children : List Failure} (ht : p.IsTyped)
    (hw : p.AreWritable) (hc : (Value.int children.length).isWritable = true)
    (h : ∀ f ∈ children, f.isWritable = true) : (worded p.head children).isWritable = true :=
  worded_isWritable (Notice.Parts.head_isWritable ht hw) hc h

/-- A failure without parts. -/
theorem alone_isWritable {p : Notice.Parts} (ht : p.IsTyped) (hw : p.AreWritable) :
    (worded p.head []).isWritable = true :=
  worded_head_isWritable ht hw Value.isWritable_zero fun _ hf => nomatch hf

end Failure

/-! ## What is raised -/

namespace Raised

/-- Whether what is raised can be worded, where it is a failure. -/
def isWritable : Raised → Bool
  | .failure f => f.isWritable
  | _ => true

/-- A failure, unless it shows what cannot be written. -/
theorem fail_cases {p : Notice.Parts} (ht : p.IsTyped) :
    (∃ f, fail p = .failure f) ∨ ∃ e : Fault, fail p = .fault e ∧ e.IsUnwritable ∧
      ((∀ b ∈ p.context, b.2.isJoined = true) → e = .tooManyDigits) := by
  unfold fail
  cases h : Failure.make p [] with
  | ok f => exact .inl ⟨f, rfl⟩
  | error e => exact .inr ⟨e, rfl, Failure.make_error ht h⟩

theorem fail_eq {p : Notice.Parts} (ht : p.IsTyped) (hw : p.AreWritable) :
    fail p = .failure (Failure.worded p.head []) := by
  have h : Failure.make p [] = .ok (Failure.worded p.head []) :=
    Failure.make_eq ht hw Value.isWritable_zero
  rw [fail, h]
  rfl

/-- The parts of the failure that stands for other trouble. -/
def promotion (got comparison : Value) (reason : String) : Notice.Parts where
  template := .text "$\x7breason\x7d"
  got := got
  comparison := comparison
  extra := [("reason", .text reason)]

theorem promotion_isTyped (got comparison : Value) (reason : String) :
    (promotion got comparison reason).IsTyped := ⟨rfl, .inl rfl⟩

theorem promotion_areWritable {got comparison : Value} (hg : got.isWritable = true)
    (hc : comparison.isWritable = true) (reason : String) :
    (promotion got comparison reason).AreWritable where
  got := hg
  expected := Value.isWritable_missing
  comparison := hc
  key := Value.isWritable_null
  extra := Notice.Parts.isWritable_of_mem_text

/-- The failure itself, or the one that stands for other trouble. -/
def promoted (got comparison : Value) : Raised → Failure
  | .failure f => f
  | r => Failure.worded (promotion got comparison r.reason).head []

theorem promotion_isJoined {got comparison : Value} (hg : got.isJoined = true)
    (hc : comparison.isJoined = true) (reason : String) :
    ∀ b ∈ (promotion got comparison reason).context, b.2.isJoined = true := by
  intro b hb
  rcases Notice.Parts.mem_context hb with hb | hb | hb | hb | hb
  · rw [List.mem_singleton.1 hb]
    rfl
  · rw [hb]
    exact hg
  · rw [hb]
    rfl
  · rw [hb]
    exact hc
  · rw [hb]
    rfl

theorem promote_cases {r : Raised} (hr : r ≠ .cancelled) (got comparison : Value) :
    (∃ f, r.promote got comparison = .failure f) ∨
      ∃ e : Fault, r.promote got comparison = .fault e ∧ e.IsUnwritable ∧
        (got.isJoined = true → comparison.isJoined = true → e = .tooManyDigits) := by
  have other : ∀ reason, (∃ f, fail (promotion got comparison reason) = .failure f) ∨
      ∃ e : Fault, fail (promotion got comparison reason) = .fault e ∧ e.IsUnwritable ∧
        (got.isJoined = true → comparison.isJoined = true → e = .tooManyDigits) := by
    intro reason
    rcases fail_cases (promotion_isTyped got comparison reason) with hf | ⟨e, he, hun, hjoined⟩
    · exact .inl hf
    · exact .inr ⟨e, he, hun, fun hg hc => hjoined (promotion_isJoined hg hc reason)⟩
  cases r with
  | failure f => exact .inl ⟨f, rfl⟩
  | setup e => exact other (Raised.setup e).reason
  | fault e => exact other (Raised.fault e).reason
  | cancelled => exact absurd rfl hr

theorem promote_ne_cancelled {r : Raised} (hr : r ≠ .cancelled) (got comparison : Value) :
    r.promote got comparison ≠ .cancelled := by
  rcases promote_cases hr got comparison with ⟨f, hf⟩ | ⟨e, he, -⟩
  · simp [hf]
  · simp [he]

theorem promote_eq {r : Raised} (hr : r ≠ .cancelled) {got comparison : Value}
    (hg : got.isWritable = true) (hc : comparison.isWritable = true) :
    r.promote got comparison = .failure (r.promoted got comparison) := by
  have hw := promotion_areWritable hg hc
  cases r with
  | failure f => rfl
  | setup e => exact fail_eq (promotion_isTyped _ _ _) (hw (Raised.setup e).reason)
  | fault e => exact fail_eq (promotion_isTyped _ _ _) (hw (Raised.fault e).reason)
  | cancelled => exact absurd rfl hr

theorem promoted_isWritable {r : Raised} (hr : r.isWritable = true) {got comparison : Value}
    (hg : got.isWritable = true) (hc : comparison.isWritable = true) :
    (r.promoted got comparison).isWritable = true := by
  have other : ∀ reason,
      (Failure.worded (promotion got comparison reason).head []).isWritable = true := fun reason =>
    Failure.alone_isWritable (promotion_isTyped _ _ _) (promotion_areWritable hg hc reason)
  cases r with
  | failure f => exact hr
  | _ => exact other _

end Raised

end Attest
