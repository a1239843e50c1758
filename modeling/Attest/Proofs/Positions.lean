import Attest.Proofs.Records
import Attest.Proofs.Rewording

/-!
# Positions

A step that judges a part of its input by another step, however deep. Where the part is refused, so
is the whole: the failure of the part is below the one of the whole, moved to where the part is, and
says what its template gives there.

* `Failure.MovedTo`: what stays of a failure that was moved.
* `Step.Judges`: a step judges a part of its input by another step.
* `Judges.fails`: the failure of a part is below the one of the whole.
-/

namespace Attest

/-- The place of what stands under a key; null is no place. -/
def Trail.ofKey (key : Value) : Trail :=
  match key with
  | .null => []
  | _ => [key]

/-! ## Moved failures -/

namespace Failure

/-- The message is what the template gives with the context, the trail and the number of parts. -/
def IsCurrent (f : Failure) : Prop := f.message = f.notice.said f.children.length

/-- A failure further inside, as it is at a place further outside: only its trail, its key and its
message may be others, and the message is up to date. -/
structure MovedTo (trail : Trail) (f g : Failure) : Prop where
  template : g.notice.template = f.notice.template
  trail : g.notice.trail = trail ++ f.notice.trail
  get? : ∀ name, name ≠ "key" → g.notice.get? name = f.notice.get? name
  count : g.children.length = f.children.length
  isCurrent : g.IsCurrent

theorem worded_isCurrent (n : Notice) (children : List Failure) :
    (worded n children).IsCurrent := rfl

theorem moved_isCurrent (outer : Trail) (f : Failure) : (f.moved outer).IsCurrent := by
  obtain ⟨n, children⟩ := f
  rfl

theorem mem_nodes_self (f : Failure) : f ∈ f.nodes := by
  obtain ⟨n, children⟩ := f
  rw [nodes]
  exact List.mem_cons_self

theorem mem_nodesOf {f g : Failure} {fs : List Failure} (hf : f ∈ fs) (hg : g ∈ f.nodes) :
    g ∈ nodesOf fs := by
  induction fs with
  | nil => cases hf
  | cons first rest ih =>
    rw [nodesOf]
    rcases List.mem_cons.1 hf with rfl | hf
    · exact List.mem_append_left _ hg
    · exact List.mem_append_right _ (ih hf)

mutual

/-- All that is below a failure can be written if the failure can. -/
theorem isWritable_of_mem_nodes {g : Failure} : ∀ f : Failure, f.isWritable = true → g ∈ f.nodes →
    g.isWritable = true
  | mk n children => by
    intro hf hg
    rw [nodes] at hg
    rcases List.mem_cons.1 hg with rfl | hg
    · exact hf
    · exact isWritable_of_mem_nodesOf children (isWritable_mk.1 hf).2.2 hg

theorem isWritable_of_mem_nodesOf {g : Failure} :
    ∀ fs : List Failure, (∀ f ∈ fs, f.isWritable = true) →
    g ∈ nodesOf fs → g.isWritable = true
  | [] => by
    intro _ hg
    cases hg
  | f :: rest => by
    intro hfs hg
    rw [nodesOf] at hg
    rcases List.mem_append.1 hg with hg | hg
    · exact isWritable_of_mem_nodes f (hfs f List.mem_cons_self) hg
    · exact isWritable_of_mem_nodesOf rest (fun f hf => hfs f (List.mem_cons_of_mem _ hf)) hg

end

namespace MovedTo

variable {trail : Trail} {f g : Failure}

theorem refl (h : f.IsCurrent) : MovedTo [] f f := ⟨rfl, rfl, fun _ _ => rfl, rfl, h⟩

/-- A moved failure is moved on. -/
theorem moved (h : MovedTo trail f g) (outer : Trail) :
    MovedTo (outer ++ trail) f (g.moved outer) where
  template := (template_moved outer g).trans h.template
  trail := by rw [trail_moved, h.trail, List.append_assoc]
  get? name hname := (get?_moved outer g name).trans (h.get? name hname)
  count := (length_children_moved outer g).trans h.count
  isCurrent := moved_isCurrent outer g

/-- A key changes nothing but the key. -/
theorem withKey (h : MovedTo trail f g) (key : Value) (outer : Trail) :
    MovedTo (outer ++ trail) f ((Failure.mk (g.notice.withKey key) g.children).moved outer) where
  template :=
    (template_moved outer _).trans ((Notice.template_withKey g.notice key).trans h.template)
  trail := by rw [trail_moved, Failure.notice, Notice.trail_withKey, h.trail, List.append_assoc]
  get? name hname := by
    rw [get?_moved, Failure.notice, Notice.get?_withKey_of_ne hname, h.get? name hname]
  count := (length_children_moved outer _).trans h.count
  isCurrent := moved_isCurrent outer _

/-- What is below a failure is below it at its place in a whole. -/
theorem placed {part : Failure} (h : MovedTo trail f g) (hg : g ∈ part.nodes) (key : Value) :
    ∃ g' ∈ (part.placed key).nodes, MovedTo (Trail.ofKey key ++ trail) f g' := by
  obtain ⟨n, children⟩ := part
  by_cases hkey : key = .null
  · rw [hkey]
    exact ⟨g, hg, h⟩
  · have hplaced : (Failure.mk n children).placed key = (Failure.mk (n.withKey key) children).moved
      [key] := by
      cases key with
      | null => exact absurd rfl hkey
      | _ => rfl
    have hplace : Trail.ofKey key = [key] := by
      cases key with
      | null => exact absurd rfl hkey
      | _ => rfl
    rw [hplaced, hplace, nodes_moved, nodes, List.map_cons]
    rw [nodes] at hg
    rcases List.mem_cons.1 hg with rfl | hg
    · exact ⟨_, List.mem_cons_self, h.withKey key [key]⟩
    · exact ⟨_, List.mem_cons_of_mem _ (List.mem_map_of_mem hg), h.moved [key]⟩

/-- What is below a part is below the whole. -/
theorem whole {part : Failure} {key : Value} {parts : List Failure} (h : MovedTo trail f g)
    (hg : g ∈ part.nodes) (hpart : part.placed key ∈ parts) (n : Notice) :
    ∃ g' ∈ (worded n parts).nodes, MovedTo (Trail.ofKey key ++ trail) f g' := by
  obtain ⟨g', hg', hmoved⟩ := h.placed hg key
  refine ⟨g', ?_, hmoved⟩
  rw [worded, nodes]
  exact List.mem_cons_of_mem _ (mem_nodesOf hpart hg')

end MovedTo

end Failure

/-! ## Ready steps -/

namespace Composite

/-- A rejected entry has its part in the failure of the whole. -/
theorem concluded_rejected {build : List (Value × Value) → Value} {whole : Notice}
    {findings : List (Value × Finding)} {segment : Value} {f : Failure}
    (h : (segment, Finding.rejected f) ∈ findings) :
    ∃ parts, concluded build whole findings = .error (.failure (Failure.worded whole parts)) ∧
      f.placed segment ∈ parts := by
  have hpart : (segment, f) ∈ failures findings := mem_failures.2 h
  refine ⟨(failures findings).map fun part => part.2.placed part.1, ?_,
    List.mem_map.2 ⟨_, hpart, rfl⟩⟩
  unfold concluded
  split
  · next hnil =>
    rw [hnil] at hpart
    cases hpart
  · rfl

end Composite

namespace Step

/-- A step on a value that raises nothing but failures, all of which can be written, but for what a
guard around it turns into one. -/
structure IsReady (w : World) (s : Step) (v : Value) : Prop where
  isTame : s.isTame true = true
  isWritable : v.isWritable = true
  staysWritable : s.staysWritable w [v] = true

namespace IsReady

variable {w : World} {s t : Step} {v : Value}

/-- The failures of a ready step can be written. -/
theorem failure_isWritable (h : IsReady w s v) (hw : w.NeverCancels) {f : Failure}
    (hf : (s.program w [v]).outcome = .error (.failure f)) : f.isWritable = true := by
  have hargs : [v].all Value.isWritable = true := by simpa using h.isWritable
  have hcontained := Step.contained_raw hw s [v] h.isTame hargs h.staysWritable
  rw [hf] at hcontained
  exact hcontained.isWritable_error

theorem first (h : IsReady w (.andThen s t) v) : IsReady w s v := by
  obtain ⟨htame, hv, hrun⟩ := h
  simp only [Step.isTame, Step.staysWritable, Bool.and_eq_true] at htame hrun
  exact ⟨htame.1, hv, hrun.1⟩

theorem second (h : IsReady w (.andThen s t) v) (hw : w.NeverCancels) {u : Value}
    (hu : (s.program w [v]).outcome = .ok u) : IsReady w t u := by
  obtain ⟨htame, hv, hrun⟩ := h
  simp only [Step.isTame, Step.staysWritable, Bool.and_eq_true, hu] at htame hrun
  have hargs : [v].all Value.isWritable = true := by simpa using hv
  have hcontained := Step.contained_raw hw s [v] htame.1 hargs hrun.1
  rw [hu] at hcontained
  exact ⟨htame.2, hcontained.isWritable_ok, hrun.2⟩

theorem present (hv : v.isNullish = false) {default : Default}
    (h : IsReady w (.optional s default) v) :
    IsReady w s v := by
  obtain ⟨htame, hwritable, hrun⟩ := h
  simp only [Step.isTame, Step.staysWritable, Bool.and_eq_true, firstArgument, List.headD_cons,
    hv, Bool.not_false, ↓reduceIte] at htame hrun
  exact ⟨htame.1, hwritable, hrun⟩

theorem inner {path : List Value} (h : IsReady w (.inside path s) v) : IsReady w s v := by
  obtain ⟨htame, hv, hrun⟩ := h
  simp only [Step.isTame, Step.staysWritable, Bool.and_eq_true] at htame hrun
  exact ⟨htame, hv, hrun.2⟩

section
variable {mode : Mode} {message key item k : Value} {fields : List (Value × Step)}
    {input : List (Value × Value)}

theorem field (h : IsReady w (.fields mode message fields) v) (hinput : v.entries? = some input)
    (hmem : (key, item) ∈ Fields.working mode (fields.map (·.1)) input)
    (hfield : fields.find? (fun field => field.1.same key) = some (k, s)) : IsReady w s item := by
  obtain ⟨htame, hv, hrun⟩ := h
  simp only [Step.isTame, Step.staysWritable, Bool.and_eq_true, firstArgument,
    List.headD_cons, hinput, List.all_eq_true] at htame hrun
  have hitem := Fields.working_isWritable mode (fields.map (·.1)) hv hinput _ hmem
  have hstep := (hrun.2 _ hmem).2
  have hmap : fields = fields.map fun field => (field.1, field.2) := by simp
  rw [hmap, fieldStaysWritable_map, hfield] at hstep
  exact ⟨fieldsAreTame_iff.1 htame.2 _ (List.mem_of_find?_eq_some hfield), hitem, hstep⟩

/-- A record fails where a field of it fails, and has the failure at the place of the key. -/
theorem field_fails (h : IsReady w (.fields mode message fields) v) (hw : w.NeverCancels)
    (hinput : v.entries? = some input)
    (hmem : (key, item) ∈ Fields.working mode (fields.map (·.1)) input)
    (hfield : fields.find? (fun field => field.1.same key) = some (k, s)) {f : Failure}
    (hf : (s.program w [item]).outcome = .error (.failure f)) :
    ∃ parts, ((Step.fields mode message fields).program w [v]).outcome =
        .error (.failure (Failure.worded (Composite.outline message "struct").head parts)) ∧
      f.placed key ∈ parts := by
  have htame := h.isTame
  simp only [Step.isTame, Bool.and_eq_true] at htame
  rw [(Step.fields_concluded hw htame.2 htame.1 hinput h.isWritable h.staysWritable).1]
  refine Composite.concluded_rejected (List.mem_map.2 ⟨.judged key item (s.program w), ?_, ?_⟩)
  · refine List.mem_filterMap.2 ⟨(key, item), hmem, ?_⟩
    simp only [Fields.entry?, Schema.programFor?_fieldPrograms, hfield, Option.map_some]
  · simp only [Entry.segment, Entry.found, Call.judgement_of_error hf]
    rfl

end

section
variable {message x : Value} {element : Step} {items : List Value} {i : Nat}

theorem item (h : IsReady w (.elements message element) v) (hitems : v.iterate = .ok items)
    (hi : items[i]? = some x) : IsReady w element x := by
  obtain ⟨htame, hv, hrun⟩ := h
  simp only [Step.isTame, Step.staysWritable, Bool.and_eq_true, firstArgument,
    List.headD_cons, hitems, List.all_eq_true] at htame hrun
  have hx := hrun.2 x (List.mem_of_getElem? hi)
  exact ⟨htame.2, hx.1, hx.2⟩

/-- The outcome of a list is the conclusion from what is found of its items. -/
theorem items_concluded (h : IsReady w (.elements message element) v) (hw : w.NeverCancels)
    (hitems : v.iterate = .ok items) :
    ((Step.elements message element).program w [v]).outcome =
      Composite.concluded (fun answers => .list (answers.map (·.2)))
        (Composite.outline message "array").head
        ((((List.range items.length).zip items).map fun e =>
          Entry.judged (.int e.1) e.2 (element.program w)).map fun e => (e.segment, e.found)) := by
  obtain ⟨htame, hv, hrun⟩ := h
  simp only [Step.isTame, Step.staysWritable, Bool.and_eq_true, firstArgument,
    List.headD_cons, hitems, List.all_eq_true] at htame hrun
  obtain ⟨hcount, hrun⟩ := hrun
  simp only [Step.program, Program.elements, firstArgument, List.headD_cons, hitems]
  refine Composite.collect_eq (Composite.outline message "array") rfl
    (Composite.outline_isTyped htame.1.2 _)
    (Composite.outline_areWritable _ _) (by simpa using hcount) fun e he => ?_
  obtain ⟨⟨j, y⟩, hmem, rfl⟩ := List.mem_map.1 he
  obtain ⟨hj, hy⟩ := List.of_mem_zip hmem
  have hlt : j < items.length := List.mem_range.1 hj
  have hargs : [y].all Value.isWritable = true := by simpa using (hrun y hy).1
  have hcontained := Step.contained_raw hw element [y] htame.2 hargs (hrun y hy).2
  exact (Entry.StaysWritable.judged (Value.isWritable_int_of_le (Nat.le_of_lt hlt) hcount)
    (hrun y hy).1
    hcontained).isWritable

/-- A list fails where an item of it fails, and has the failure at the place of the index. -/
theorem item_fails (h : IsReady w (.elements message element) v) (hw : w.NeverCancels)
    (hitems : v.iterate = .ok items) (hi : items[i]? = some x) {f : Failure}
    (hf : (element.program w [x]).outcome = .error (.failure f)) :
    ∃ parts, ((Step.elements message element).program w [v]).outcome =
        .error (.failure (Failure.worded (Composite.outline message "array").head parts)) ∧
      f.placed (.int i) ∈ parts := by
  have hmem : (i, x) ∈ (List.range items.length).zip items := by
    obtain ⟨hlt, -⟩ := List.getElem?_eq_some_iff.1 hi
    exact List.mem_of_getElem? (List.getElem?_zip_eq_some.2 ⟨List.getElem?_range hlt, hi⟩)
  rw [h.items_concluded hw hitems]
  refine Composite.concluded_rejected (List.mem_map.2 ⟨_, List.mem_map_of_mem hmem, ?_⟩)
  simp only [Entry.segment, Entry.found, Call.judgement_of_error hf]
  rfl

end

end IsReady

/-! ## Parts that are judged -/

/-- A step judges a part of a value by another step: a field of a record, an item of a list, and
whatever is judged by one of two steps in a row, where the value is present, or under a path. -/
inductive Judges (w : World) (part : Step) (item : Value) : Step → Value → Trail → Prop
  | here : Judges w part item part item []
  | field {mode : Mode} {message v key x k : Value} {fields : List (Value × Step)}
      {input : List (Value × Value)} {s : Step} {trail : Trail} : v.entries? = some input →
      (key, x) ∈ Fields.working mode (fields.map (·.1)) input →
      fields.find? (fun field => field.1.same key) = some (k, s) → Judges w part item s x trail →
      Judges w part item (.fields mode message fields) v (Trail.ofKey key ++ trail)
  | element {message v x : Value} {element : Step} {items : List Value} {i : Nat} {trail : Trail} :
      v.iterate = .ok items → items[i]? = some x → Judges w part item element x trail →
      Judges w part item (.elements message element) v (.int i :: trail)
  | first {s t : Step} {v : Value} {trail : Trail} : Judges w part item s v trail →
      Judges w part item (.andThen s t) v trail
  | second {s t : Step} {v u : Value} {trail : Trail} : (s.program w [v]).outcome = .ok u →
      Judges w part item t u trail → Judges w part item (.andThen s t) v trail
  | present {s : Step} {default : Default} {v : Value} {trail : Trail} : v.isNullish = false →
      Judges w part item s v trail → Judges w part item (.optional s default) v trail
  | inside {s : Step} {path : List Value} {v : Value} {trail : Trail} :
      Judges w part item s v trail →
      Judges w part item (.inside path s) v (path ++ trail)

namespace Judges

variable {w : World} {part s : Step} {item v : Value} {trail : Trail}

theorem isReady (h : Judges w part item s v trail) (hw : w.NeverCancels) :
    IsReady w s v → IsReady w part item := by
  induction h with
  | here => exact id
  | field hinput hmem hfield _ ih => exact fun hs => ih (hs.field hinput hmem hfield)
  | element hitems hi _ ih => exact fun hs => ih (hs.item hitems hi)
  | first _ ih => exact fun hs => ih hs.first
  | second hu _ ih => exact fun hs => ih (hs.second hw hu)
  | present hv _ ih => exact fun hs => ih (hs.present hv)
  | inside _ ih => exact fun hs => ih hs.inner

/-- A part of a part is a part of the whole. -/
theorem trans {t : Step} {v' : Value} {trail' : Trail} (h : Judges w part item s v trail)
    (h' : Judges w s v t v' trail') : Judges w part item t v' (trail' ++ trail) := by
  induction h' with
  | here => exact h
  | field hinput hmem hfield _ ih =>
    rw [List.append_assoc]
    exact .field hinput hmem hfield ih
  | element hitems hi _ ih => exact .element hitems hi ih
  | first _ ih => exact .first ih
  | second hu _ ih => exact .second hu ih
  | present hv _ ih => exact .present hv ih
  | inside _ ih =>
    rw [List.append_assoc]
    exact .inside ih

/-- Where a part fails, the whole fails, and has the failure of the part below it, at its place. -/
theorem fails (h : Judges w part item s v trail) (hw : w.NeverCancels) {g : Failure}
    (hg : (part.program w [item]).outcome = .error (.failure g)) (hcurrent : g.IsCurrent) :
    IsReady w s v →
      ∃ f, (s.program w [v]).outcome = .error (.failure f) ∧
      ∃ g' ∈ f.nodes, g.MovedTo trail g' := by
  induction h with
  | here => exact fun _ => ⟨g, hg, g, g.mem_nodes_self, .refl hcurrent⟩
  | field hinput hmem hfield _ ih =>
    intro hs
    obtain ⟨f, hf, g', hg', hmoved⟩ := ih (hs.field hinput hmem hfield)
    obtain ⟨parts, hparts, hpart⟩ := hs.field_fails hw hinput hmem hfield hf
    exact ⟨_, hparts, hmoved.whole hg' hpart _⟩
  | element hitems hi _ ih =>
    intro hs
    obtain ⟨f, hf, g', hg', hmoved⟩ := ih (hs.item hitems hi)
    obtain ⟨parts, hparts, hpart⟩ := hs.item_fails hw hitems hi hf
    exact ⟨_, hparts, hmoved.whole hg' hpart _⟩
  | first _ ih =>
    intro hs
    obtain ⟨f, hf, hnodes⟩ := ih hs.first
    refine ⟨f, ?_, hnodes⟩
    simp only [Step.program, Program.andThen_eq, Call.outcome_next, hf]
    rfl
  | second hu _ ih =>
    intro hs
    obtain ⟨f, hf, hnodes⟩ := ih (hs.second hw hu)
    refine ⟨f, ?_, hnodes⟩
    simp only [Step.program, Program.andThen_eq, Call.outcome_next, hu, Attempt.ok_bind,
      Program.guarded_eq, Call.outcome_mapRaised, hf]
    rfl
  | present hv _ ih =>
    intro hs
    obtain ⟨f, hf, hnodes⟩ := ih (hs.present hv)
    refine ⟨f, ?_, hnodes⟩
    have hpresent : (firstArgument [_]).isNullish = false := hv
    simp only [Step.program, Program.optional_present hpresent, Program.ifPresent_eq, hpresent,
      Bool.false_eq_true, ↓reduceIte, Call.outcome_mapRaised, hf]
    rfl
  | @inside s path v trail _ ih =>
    intro hs
    obtain ⟨f, hf, g', hg', hmoved⟩ := ih hs.inner
    have hwritable := hs.inner.failure_isWritable hw hf
    have hpath : path.all Value.isWritable = true := by
      have hrun := hs.staysWritable
      simp only [Step.staysWritable, Bool.and_eq_true] at hrun
      exact hrun.1
    simp only [Step.program, Program.inside_eq, Call.outcome_mapRaised, hf]
    simp only [Except.mapError, Failure.inside_eq hpath hwritable, Raised.ofFailure]
    refine ⟨_, rfl, ?_⟩
    cases path with
    | nil => exact ⟨g', hg', hmoved⟩
    | cons segment rest =>
      refine ⟨_, ?_, hmoved.moved (segment :: rest)⟩
      simp only [List.isEmpty_cons, Bool.false_eq_true, ↓reduceIte, Failure.nodes_moved]
      exact List.mem_map_of_mem hg'

end Judges

end Step

end Attest
