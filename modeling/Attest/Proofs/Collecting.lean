import Attest.Proofs.Outcome
import Attest.Proofs.Wording

/-!
# Collecting

What a composite comes to where everything can be written: each entry is settled on its own, and the
failures, if there are any, become the parts of one failure, in the order of the entries.

* `Entry.found`: what is known of an entry in the end.
* `collect_eq`: the composite of entries is the conclusion from what is found of each of them.
-/

namespace Attest

/-! ## Entries -/

namespace Entry

def segment : Entry → Value
  | .judged segment _ _ | .refused segment _ | .kept segment _ => segment

/-- What is known of a judged item in the end; trouble has become a failure. -/
def judgement (item : Value) : Except Raised Value → Finding
  | .ok v => .accepted v
  | .error r => .rejected (r.promoted item (.text "struct"))

/-- What is known of an entry in the end, unless its own failure could not be worded. -/
def found : Entry → Finding
  | .judged _ item p => judgement item (p [item]).judgement
  | .refused _ (.ok f) => .rejected f
  | .refused _ (.error _) => .accepted .missing
  | .kept _ item => .accepted item

/-- An entry of which all but its answer can be written, and that nothing cancels. -/
inductive IsWritable : Entry → Prop
  | judged {segment item : Value} {p : Program} : segment.isWritable = true →
      item.isWritable = true →
      (∀ r, (p [item]).outcome = .error r → r ≠ .cancelled ∧ r.isWritable = true) →
      IsWritable (.judged segment item p)
  | refused {segment : Value} {f : Failure} : segment.isWritable = true → f.isWritable = true →
      IsWritable (.refused segment (.ok f))
  | kept {segment item : Value} : segment.isWritable = true → item.isWritable = true →
      IsWritable (.kept segment item)

theorem IsWritable.segment {e : Entry} (h : e.IsWritable) : e.segment.isWritable = true := by
  cases h <;> assumption

/-- The object of an exception is no cancellation either. -/
theorem judgement_error {c : Call Value}
    (h : ∀ r, c.outcome = .error r → r ≠ .cancelled ∧ r.isWritable = true) {r : Raised}
    (hr : c.judgement = .error r) : r ≠ .cancelled ∧ r.isWritable = true := by
  rcases Call.judgement_eq_error.1 hr with hr | ⟨-, v, -, hv⟩
  · exact h r hr
  · obtain ⟨name, text, rfl⟩ := Value.trouble?_eq_some hv
    exact ⟨nofun, rfl⟩

theorem IsWritable.settled_eq {e : Entry} (h : e.IsWritable) :
    e.settled = .ok (e.segment, e.found) := by
  cases h with
  | @judged segment item p _ hi hr =>
    simp only [settled, found, Entry.segment]
    cases hx : (p [item]).judgement with
    | ok v => rfl
    | error r =>
      have hp := Raised.promote_eq (judgement_error hr hx).1 hi (Value.isWritable_text "struct")
      simp only [Finding.ofRaised, hp]
      rfl
  | refused | kept => rfl

theorem IsWritable.rejected {e : Entry} (h : e.IsWritable) {f : Failure}
    (hf : e.found = .rejected f) : f.isWritable = true := by
  cases h with
  | @judged segment item p _ hi hr =>
    simp only [found] at hf
    cases hx : (p [item]).judgement with
    | ok w =>
      rw [hx] at hf
      cases hf
    | error r =>
      rw [hx] at hf
      cases hf
      exact Raised.promoted_isWritable (judgement_error hr hx).2 hi (Value.isWritable_text "struct")
  | refused _ hw =>
    cases hf
    exact hw
  | kept => cases hf

/-- An entry of which all can be written, its answer included. -/
structure StaysWritable (e : Entry) : Prop where
  isWritable : e.IsWritable
  accepted : ∀ v, e.found = .accepted v → v.isWritable = true

end Entry

/-! ## Composites -/

namespace Composite

/-- The conclusion from findings: one failure with a part for each one that was rejected, at its
place, or what is built from the answers. -/
def concluded (build : List (Value × Value) → Value) (whole : Notice)
    (findings : List (Value × Finding)) : Except Raised Value :=
  match failures findings with
  | [] => .ok (build (answers findings))
  | parts => .error (.failure (Failure.worded whole (parts.map fun part => part.2.placed part.1)))

/-- Parts that hang below a failure one after the other hang there together. -/
theorem addChildren_eq {n : Notice} (hn : n.isWritable = true) {parts : List (Value × Failure)}
    {children : List Failure}
    (hc : (Value.int (children.length + parts.length : Nat)).isWritable = true)
    (h : ∀ part ∈ parts, part.1.isWritable = true ∧ part.2.isWritable = true) :
    (parts.foldlM (fun parent (segment, child) => parent.addChild child segment)
      (Failure.worded n children) : Except Fault Failure) =
      .ok (Failure.worded n (children ++ parts.map fun part => part.2.placed part.1)) := by
  induction parts generalizing children with
  | nil => simp
  | cons part rest ih =>
    obtain ⟨segment, child⟩ := part
    obtain ⟨hs, hf⟩ := h _ List.mem_cons_self
    have hone : (Value.int (children.length + 1 : Nat)).isWritable = true := by
      refine Value.isWritable_int_of_le ?_ hc
      simp only [List.length_cons]
      omega
    have hrest : (Value.int ((children ++ [child.placed segment]).length + rest.length :
        Nat)).isWritable = true := by
      refine Value.isWritable_int_of_le ?_ hc
      simp only [List.length_append, List.length_cons, List.length_nil]
      omega
    rw [List.foldlM_cons]
    simp only
    rw [Failure.addChild_eq hn hone hf hs, Attempt.ok_bind,
      ih hrest fun part hp => h part (List.mem_cons_of_mem _ hp)]
    simp

theorem length_failures_le (findings : List (Value × Finding)) :
    (failures findings).length ≤ findings.length := List.length_filterMap_le _ _

/-- The conclusion is worded where all can be written. -/
theorem conclude_eq {c : Composite} (whole : Notice.Parts) {findings : List (Value × Finding)}
    (hfailure : c.failure = Failure.make whole []) (ht : whole.IsTyped) (hw : whole.AreWritable)
    (hc : (Value.int findings.length).isWritable = true)
    (h : ∀ part ∈ failures findings, part.1.isWritable = true ∧ part.2.isWritable = true) :
    (c.conclude findings).2 = concluded c.build whole.head findings := by
  have hzero : c.failure = .ok (Failure.worded whole.head []) := by
    rw [hfailure]
    exact Failure.make_eq ht hw Value.isWritable_zero
  have hn := Notice.Parts.head_isWritable ht hw
  unfold conclude concluded
  cases hparts : failures findings with
  | nil => rfl
  | cons part rest =>
    have hcount : (Value.int (([] : List Failure).length + (part :: rest).length : Nat)).isWritable
        = true := by
      refine Value.isWritable_int_of_le ?_ hc
      rw [← hparts, List.length_nil, Nat.zero_add]
      exact length_failures_le findings
    have hall := addChildren_eq hn hcount fun p hp => h p (hparts ▸ hp)
    simp only [withParts, hzero, Attempt.ok_bind]
    rw [hall]
    rfl

/-- The entries, each settled on its own, and the conclusion from that. -/
theorem collect_eq {c : Composite} (whole : Notice.Parts) {entries : List Entry}
    (hfailure : c.failure = Failure.make whole []) (ht : whole.IsTyped) (hw : whole.AreWritable)
    (hc : (Value.int entries.length).isWritable = true) (h : ∀ e ∈ entries, e.IsWritable) :
    (c.collect entries).outcome =
      concluded c.build whole.head (entries.map fun e => (e.segment, e.found)) := by
  have hsettled : entries.mapM Entry.settled = .ok (entries.map fun e => (e.segment, e.found)) :=
    Attempt.mapM_eq_ok fun e he => (h e he).settled_eq
  have hnone : ∀ e ∈ entries, ∀ r, e.settled = .error r → r = .fault .tooManyDigits := by
    intro e he r hr
    rw [(h e he).settled_eq] at hr
    cases hr
  rw [collect_outcome_of_alike (by simp) hnone, hsettled, Attempt.ok_bind]
  refine conclude_eq whole hfailure ht hw (by simpa using hc) fun part hp => ?_
  obtain ⟨e, he, heq⟩ := List.mem_map.1 (mem_failures.1 hp)
  simp only [Prod.mk.injEq] at heq
  exact ⟨heq.1 ▸ (h e he).segment, (h e he).rejected heq.2⟩

/-- The failure of the whole can be written where the entries can. -/
theorem whole_isWritable (whole : Notice.Parts) {entries : List Entry} (ht : whole.IsTyped)
    (hw : whole.AreWritable) (hc : (Value.int entries.length).isWritable = true)
    (h : ∀ e ∈ entries, e.IsWritable) :
    (Failure.worded whole.head ((failures (entries.map fun e => (e.segment, e.found))).map
      fun part => part.2.placed part.1)).isWritable = true := by
  have hlen := length_failures_le (entries.map fun e => (e.segment, e.found))
  refine Failure.worded_head_isWritable ht hw ?_ fun f hf => ?_
  · rw [List.length_map] at hlen ⊢
    exact Value.isWritable_int_of_le hlen hc
  · obtain ⟨part, hpart, rfl⟩ := List.mem_map.1 hf
    obtain ⟨e, he, heq⟩ := List.mem_map.1 (mem_failures.1 hpart)
    simp only [Prod.mk.injEq] at heq
    exact Failure.placed_isWritable ((h e he).rejected heq.2) (heq.1 ▸ (h e he).segment)

end Composite

/-! ## Fields -/

namespace Fields

/-- The parts of the failure of a value that is no map. -/
def misfit (v : Value) : Notice.Parts where
  template := .text "Expected value to be an object, got $\x7btype\x7d"
  got := v
  expected := .text "object"
  comparison := .text "type"
  extra := [("type", .text v.describe)]

theorem misfit_isTyped (v : Value) : (misfit v).IsTyped := ⟨rfl, .inl rfl⟩

theorem misfit_areWritable {v : Value} (hv : v.isWritable = true) : (misfit v).AreWritable :=
  ⟨hv, rfl, rfl, rfl, Notice.Parts.isWritable_of_mem_text⟩

theorem notAMap_eq (v : Value) : notAMap v = Raised.fail (misfit v) := rfl

/-- The parts of the failure of a key that the schema does not know. -/
def unknown (key item : Value) : Notice.Parts where
  template := .text "Unknown property passed \"$\x7bkey\x7d\""
  got := item
  comparison := .text "unknownProperty"
  key := key

theorem unknown_isTyped (key item : Value) : (unknown key item).IsTyped := ⟨rfl, .inl rfl⟩

theorem unknown_areWritable {key item : Value} (hk : key.isWritable = true)
    (hi : item.isWritable = true) : (unknown key item).AreWritable :=
  ⟨hi, rfl, rfl, hk, by simp [unknown]⟩

theorem unknownKey_eq {key item : Value} (hk : key.isWritable = true)
    (hi : item.isWritable = true) :
    unknownKey key item = .ok (Failure.worded (unknown key item).head []) :=
  Failure.make_eq (unknown_isTyped key item) (unknown_areWritable hk hi) Value.isWritable_zero

theorem unknown_isWritable {key item : Value} (hk : key.isWritable = true)
    (hi : item.isWritable = true) : (Failure.worded (unknown key item).head []).isWritable = true :=
  Failure.alone_isWritable (unknown_isTyped key item) (unknown_areWritable hk hi)

/-- A key is judged by its program, or else refused, kept or dropped, as the mode wants it. -/
theorem entry?_cases {mode : Mode} {validators : List (Value × Program)}
    {key item : Value} {e : Entry} (h : entry? mode validators key item = some e) :
    (∃ p, programFor? validators key = some p ∧ e = .judged key item p) ∨
      e = .refused key (unknownKey key item) ∨ e = .kept key item := by
  unfold entry? at h
  split at h
  · next p hp =>
    cases h
    exact .inl ⟨p, hp, rfl⟩
  · cases mode <;> cases h
    · exact .inr (.inl rfl)
    · exact .inr (.inr rfl)

theorem build_isWritable {mode : Mode} {answers : List (Value × Value)}
    (h : ∀ answer ∈ answers, answer.1.isWritable = true ∧ answer.2.isWritable = true) :
    (build mode answers).isWritable = true := by
  refine Value.isWritable_map.2 fun e he => ?_
  obtain ⟨⟨key, v⟩, hv, heq⟩ := List.mem_filterMap.1 he
  simp only at heq
  split at heq
  · split at heq
    · cases heq
    · cases heq
      exact ⟨(h _ hv).1, rfl⟩
  · cases heq
    exact h _ hv

/-- The keys and items to go through come from the input and from the schema. -/
theorem working_isWritable (mode : Mode) (keys : List Value) {v : Value}
    {input : List (Value × Value)} (hv : v.isWritable = true) (hinput : v.entries? = some input) :
    ∀ e ∈ working mode keys input, e.2.isWritable = true := by
  have hitems := Value.entries?_isWritable hv hinput
  intro e he
  unfold working at he
  split at he
  · rcases List.mem_append.1 he with he | he
    · exact (hitems e he).2
    · obtain ⟨key, -, rfl⟩ := List.mem_map.1 he
      rfl
  · exact (hitems e he).2

end Fields

end Attest
