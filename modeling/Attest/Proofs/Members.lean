import Attest.Proofs.Positions

/-!
# Members

What a record or a list says that stands under a key of a schema, once it refuses a value because of
its parts: its message is made from the key. However deep the key stands, what the whole schema
compiles to judges a part of the value by what the schema under the key compiles to.

* `member_whole`: the failure of the whole under a key.
* `Schema.Reaches`, `Reaches.judges`: where in a value the whole under a key is judged.
-/

namespace Attest

open Schema (memberMessage compileNode compileElement compileFields IsField)

/-! ## Lists that are related one by one -/

/-- What is first found in a list is related to what is first found in the other one. -/
theorem exists_find?_of_forall₂ {α β : Type} {R : α → β → Prop} {p : α → Bool}
    {q : β → Bool} {as : List α} {bs : List β} (h : List.Forall₂ R as bs)
    (hpq : ∀ a b, R a b → p a = q b) {a : α} (ha : as.find? p = some a) :
    ∃ b, bs.find? q = some b ∧ R a b := by
  induction h with
  | nil => cases ha
  | cons hab _ ih =>
    rw [List.find?_cons] at ha ⊢
    rw [← hpq _ _ hab]
    split at ha
    · cases ha
      exact ⟨_, rfl, hab⟩
    · exact ih ha

theorem Fields.mem_working_of_mem {mode : Mode} {keys : List Value} {input : List (Value × Value)}
    {e : Value × Value} (h : e ∈ input) : e ∈ Fields.working mode keys input := by
  unfold Fields.working
  split
  · exact List.mem_append_left _ h
  · exact h

namespace Value

variable {v : Value}

theorem isNullish_of_entries? {entries : List (Value × Value)} (h : v.entries? = some entries) :
    v.isNullish = false := by
  cases v with
  | map => rfl
  | _ => cases h

theorem isNullish_of_sequence? {items : List Value} (h : v.sequence? = some items) :
    v.isNullish = false := by
  cases v with
  | list | tuple => rfl
  | _ => cases h

end Value

/-! ## Failures without parts -/

namespace Failure

theorem make_children {p : Notice.Parts} {children : List Failure} {f : Failure}
    (h : make p children = .ok f) : f.children = children := by
  obtain ⟨n, -, h⟩ := Attempt.bind_eq_ok.1 h
  obtain ⟨n', -, h⟩ := Attempt.bind_eq_ok.1 h
  cases h
  rfl

/-- A failure that is raised on its own has no parts. -/
theorem fail_children {p : Notice.Parts} {f : Failure} (h : Raised.fail p = .failure f) :
    f.children = [] := by
  unfold Raised.fail Raised.ofFailure at h
  split at h
  · next hmake =>
    cases h
    exact make_children hmake
  · cases h

/-- The failure of a whole under a key, without its parts. -/
def wholeOf (k comparison : String) : Notice :=
  (Composite.outline (.text (memberMessage k)) comparison).head

end Failure

/-! ## Wholes under a key -/

namespace Schema

section
variable {mode : Mode} {settings : Settings} {w : World} {k : String}

/-- A schema that has parts: of a record, or of a list. -/
def HasParts : Value → Prop
  | .map _ | .list _ | .tuple _ => True
  | _ => False

theorem orElse_memberMessage (k : String) (fallback : Value) :
    (Value.text (memberMessage k)).orElse fallback = .text (memberMessage k) := by
  have hne : (memberMessage k).isEmpty = false := by
    rw [Bool.eq_false_iff, ne_eq, String.isEmpty_iff, memberMessage, String.append_eq_empty_iff]
    exact fun h => nomatch h.2
  rw [Value.orElse, Value.isTruthy, hne]
  rfl

/-- What a record refuses because of its parts is a map. -/
theorem fields_opened {message item : Value} {fields : List (Value × Step)} {g : Failure}
    (hg : ((Step.fields mode message fields).program w [item]).outcome = .error (.failure g))
    (hne : g.children ≠ []) : ∃ input, item.entries? = some input := by
  cases hinput : item.entries? with
  | none =>
    simp only [Step.program, Program.fields, firstArgument, List.headD_cons, hinput,
      Call.outcome_raised] at hg
    exact absurd (Failure.fail_children (Except.error.inj hg)) hne
  | some input => exact ⟨input, rfl⟩

/-- A record that refuses a map does so in its own words. -/
theorem fields_whole {message item : Value} {fields : List (Value × Step)} (hw : w.NeverCancels)
    (hready : Step.IsReady w (.fields mode message fields) item) {g : Failure}
    (hg : ((Step.fields mode message fields).program w [item]).outcome = .error (.failure g))
    (hne : g.children ≠ []) :
    ∃ parts, g = Failure.worded (Composite.outline message "struct").head parts := by
  have htame := hready.isTame
  simp only [Step.isTame, Bool.and_eq_true] at htame
  obtain ⟨input, hinput⟩ := fields_opened hg hne
  rw [(Step.fields_concluded hw htame.2 htame.1 hinput hready.isWritable
    hready.staysWritable).1] at hg
  unfold Composite.concluded at hg
  split at hg
  · cases hg
  · cases hg
    exact ⟨_, rfl⟩

/-- What is not of a kind is refused as it is, without parts. -/
theorem coerce_children {kind : Kind} {message item : Value} {g : Failure}
    (h : ((Step.coerce kind message).program w [item]).outcome = .error (.failure g)) :
    g.children = [] := by
  simp only [Step.program, Call.outcome_ofExcept, Kind.coerce] at h
  split at h
  · cases h
  · exact Failure.fail_children (Except.error.inj h)
  · cases h

/-- A list that refuses its items does so in its own words. -/
theorem elements_whole {message item : Value} {element : Step} (hw : w.NeverCancels)
    (hready : Step.IsReady w (.andThen (.coerce .array .null) (.elements message element)) item)
    {g : Failure} (hg : ((Step.andThen (.coerce .array .null) (.elements message element)).program w
      [item]).outcome = .error (.failure g)) (hne : g.children ≠ []) :
    ∃ parts, g = Failure.worded (Composite.outline message "array").head parts := by
  rw [Step.program, Program.andThen_eq, Call.outcome_next] at hg
  cases hu : ((Step.coerce .array .null).program w [item]).outcome with
  | error r =>
    rw [hu] at hg
    cases Except.error.inj hg
    exact absurd (coerce_children hu) hne
  | ok u =>
    rw [hu, Attempt.ok_bind, Program.guarded_eq, Call.outcome_mapRaised] at hg
    have hsecond := hready.second hw hu
    cases hitems : u.iterate with
    | error e =>
      simp only [Step.program, Program.elements, firstArgument, List.headD_cons, hitems,
        Call.outcome_raised] at hg
      exact absurd (Failure.fail_children (Except.error.inj hg)) hne
    | ok items =>
      rw [hsecond.items_concluded hw hitems] at hg
      unfold Composite.concluded at hg
      split at hg
      · cases hg
      · cases hg
        exact ⟨_, rfl⟩

/-- A whole under a key that refuses a value because of its parts says so in the words of the
key. -/
theorem member_whole {node item : Value} (hnode : HasParts node) {member : Validator}
    (hmember : (compileNode mode settings (.text (memberMessage k)) node).Yields member)
    (hw : w.NeverCancels) (hready : Step.IsReady w member.step item) {g : Failure}
    (hg : (member.step.program w [item]).outcome = .error (.failure g)) (hne : g.children ≠ []) :
    ∃ comparison parts, g = Failure.worded (Failure.wholeOf k comparison) parts := by
  have hlist :
    ∀ nodes, (compileElement mode settings (.text (memberMessage k)) nodes).Yields member →
      ∃ comparison parts, g = Failure.worded (Failure.wholeOf k comparison) parts := by
    intro nodes h
    rcases nodes with _ | ⟨node, _ | _⟩
    · rw [compileElement] at h
      rw [h.pure, Validator.create] at hg
      · simp only [Step.program, Call.outcome_ofExcept, Kind.coerce] at hg
        split at hg
        · cases hg
        · exact absurd (Failure.fail_children (Except.error.inj hg)) hne
        · cases hg
      · simp
    · rw [compileElement] at h
      obtain ⟨element, -, h⟩ := h.bind
      rw [orElse_memberMessage] at h
      rw [h.pure] at hg hready
      exact ⟨"array", elements_whole hw hready hg hne⟩
    · rw [compileElement] at h
      · exact h.throw.elim
      · simp
      · simp
  cases node with
  | map entries =>
    obtain ⟨fields, -, rfl⟩ := compileNode_map_yields hmember
    rw [orElse_memberMessage] at hg hready
    exact ⟨"struct", fields_whole hw hready hg hne⟩
  | list nodes =>
    rw [compileNode] at hmember
    exact hlist nodes hmember
  | tuple nodes =>
    rw [compileNode] at hmember
    exact hlist nodes hmember
  | _ => exact hnode.elim

/-- Where the schema under a key judges a part of a value: the key stands in the schema itself, or
in one of its fields or its items. -/
inductive Reaches (k : String) (node item : Value) : Value → Value → Trail → Prop
  | member {entries : List (Value × Value)} {v key : Value} {input : List (Value × Value)} :
      v.entries? = some input → (key, item) ∈ input →
      entries.find? (fun e => e.1.same key) = some (.text k, node) →
      Reaches k node item (.map entries) v (Trail.ofKey key)
  | field {entries : List (Value × Value)} {v key x k' sub : Value} {input : List (Value × Value)}
      {trail : Trail} : v.entries? = some input → (key, x) ∈ input →
      entries.find? (fun e => e.1.same key) = some (k', sub) → Reaches k node item sub x trail →
      Reaches k node item (.map entries) v (Trail.ofKey key ++ trail)
  | element {schema v x sub : Value} {items : List Value} {i : Nat} {trail : Trail} :
      schema = .list [sub] ∨ schema = .tuple [sub] → v.sequence? = some items → items[i]? = some x →
      Reaches k node item sub x trail → Reaches k node item schema v (.int i :: trail)

/-- A compiled record judges what stands under a key by what the schema under the key compiles
to. -/
theorem field_of_find? {entries : List (Value × Value)} {fields : List (Value × Step)}
    {key k' sub : Value} (h : List.Forall₂ (IsField mode settings) entries fields)
    (hfind : entries.find? (fun e => e.1.same key) = some (k', sub)) :
    ∃ name member, k'.plain = .ok name ∧
      (compileNode mode settings (.text (memberMessage name)) sub).Yields member ∧
      fields.find? (fun field => field.1.same key) = some (k', member.step) := by
  obtain ⟨⟨other, step⟩, hfield, hkey, name, kind, hname, hcompiled⟩ :=
    exists_find?_of_forall₂ (q := fun field => field.1.same key) h
      (fun e f hef => by rw [hef.key]) hfind
  obtain rfl : other = k' := hkey
  exact ⟨name, ⟨kind, step⟩, hname, hcompiled, hfield⟩

/-- A list of a schema judges its items by what the schema compiles to. -/
theorem element_judges {message v x item : Value} {part element : Step}
    {items : List Value} {i : Nat} {trail : Trail} (hitems : v.sequence? = some items)
    (hi : items[i]? = some x) (h : Step.Judges w part item element x trail) :
    Step.Judges w part item (.andThen (.coerce .array .null) (.elements message element)) v
      (.int i :: trail) := by
  have hcoerce : ((Step.coerce .array .null).program w [v]).outcome = .ok (.list items) := by
    rw [Step.program, Call.outcome_ofExcept]
    exact coerce_array_eq_ok.2 ⟨items, hitems, rfl⟩
  have hiterate : (Value.list items).iterate = .ok items :=
    Value.iterate_list_of_isClosed (Value.sequence?_isClosed hitems)
  exact .second hcoerce (.element hiterate hi h)

/-- What a schema compiles to judges the value by what the schema under the key compiles to. -/
theorem Reaches.judges {node item schema v : Value} {trail : Trail}
    (h : Reaches k node item schema v trail) :
    ∀ {message : Value} {u : Validator}, (compileNode mode settings message schema).Yields u →
      ∃ member, (compileNode mode settings (.text (memberMessage k)) node).Yields member ∧
        Step.Judges w member.step item u.step v trail := by
  induction h with
  | member hinput hmem hfind =>
    intro message u hu
    obtain ⟨fields, hfields, rfl⟩ := compileNode_map_yields hu
    obtain ⟨name, member, hname, hmember, hfield⟩ := field_of_find? hfields hfind
    obtain rfl : k = name := Except.ok.inj hname
    refine ⟨member, hmember, ?_⟩
    rw [← List.append_nil (Trail.ofKey _)]
    exact .field hinput (Fields.mem_working_of_mem hmem) hfield .here
  | field hinput hmem hfind _ ih =>
    intro message u hu
    obtain ⟨fields, hfields, rfl⟩ := compileNode_map_yields hu
    obtain ⟨name, sub, -, hsub, hfield⟩ := field_of_find? hfields hfind
    obtain ⟨member, hmember, hjudges⟩ := ih hsub
    exact ⟨member, hmember, .field hinput (Fields.mem_working_of_mem hmem) hfield hjudges⟩
  | @element schema v x sub items i trail hschema hitems hi _ ih =>
    intro message u hu
    have hcompiled : (compileElement mode settings message [sub]).Yields u := by
      rcases hschema with rfl | rfl
      · rwa [compileNode] at hu
      · rwa [compileNode] at hu
    rw [compileElement] at hcompiled
    obtain ⟨element, helement, hcompiled⟩ := hcompiled.bind
    obtain ⟨member, hmember, hjudges⟩ := ih helement
    rw [hcompiled.pure]
    exact ⟨member, hmember, element_judges hitems hi hjudges⟩

/-- A path in front of a validator is in front of all that it judges. -/
theorem under_judges {part : Step} {u : Validator} {item v : Value} {trail : Trail}
    (segments : List Value) (h : Step.Judges w part item u.step v trail) :
    Step.Judges w part item (under segments u).step v (segments ++ trail) := by
  unfold under
  cases segments with
  | nil => exact h
  | cons segment rest => exact .inside h

end

end Schema

/-- Where a part refuses an item because of what is in it, the whole is refused, and has the failure
of the part at its place. What is known of failures in the words of the part, wherever they are
moved, is known of that one. -/
theorem Validator.refused_of_judges {w : World} (hw : w.NeverCancels) {head : String → Notice}
    {Q : Failure → Prop} {u part : Validator} {v item : Value} {place : Trail}
    (ht : u.isTame = true) (hrun : u.staysWritable w [v] = true)
    (hjudges : ∀ g, (part.step.program w [item]).outcome = .error (.failure g) → g.children ≠ [] →
      Step.Judges w part.step item u.step v place)
    (hwhole : Step.IsReady w part.step item →
      ∀ g, (part.step.program w [item]).outcome = .error (.failure g) →
      g.children ≠ [] → ∃ comparison parts, g = Failure.worded (head comparison) parts)
    (hwords : ∀ {comparison parts g}, Failure.MovedTo place
      (Failure.worded (head comparison) parts) g →
      g.isWritable = true → Q g)
    {g : Failure} (hg : (part.call w [item]).settle.2 = .error (.failure g))
    (hne : g.children ≠ []) :
    ∃ f, (u.call w [v]).settle.2 = .error (.failure f) ∧
    ∃ g' ∈ f.nodes, g.MovedTo place g' ∧ Q g' := by
  rw [settle_one] at hg
  obtain ⟨hv, hstays⟩ := staysWritable_one.1 hrun
  have hready : Step.IsReady w u.step v := ⟨Step.isTame_of_guarded ht true, hv, hstays⟩
  have hjudges := hjudges g hg hne
  obtain ⟨comparison, parts, rfl⟩ := hwhole (hjudges.isReady hw hready) g hg hne
  obtain ⟨f, hf, g', hg', hmoved⟩ := hjudges.fails hw hg (Failure.worded_isCurrent _ _) hready
  have hwritable := Failure.isWritable_of_mem_nodes f (hready.failure_isWritable hw hf) hg'
  exact ⟨f, (settle_one u w v).trans hf, g', hg', hmoved, hwords hmoved hwritable⟩

end Attest
