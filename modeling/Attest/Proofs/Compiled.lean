import Attest.Proofs.Answers
import Attest.Proofs.Built

/-!
# Compiled schemas

What schemas compile to, for all modes at once. The mode decides nothing about whether a schema
compiles, and nothing about the shape of what it compiles to: the validators differ only in the
modes of the records in them.

* `Compiles`: a schema and its validators, one for each mode.
* `compile_alike`: a schema compiles in all modes, or it fails in all of them with the same mistake.
* `comes`: what the validator of a mode comes to; `judges`: what a record or a list makes of that.
* `comes_elements_ok`, `comes_fields_ok`: when the validator of a list or of a record accepts.
-/

namespace Attest

namespace Build

variable {α β : Type}

/-- From every log, building raises something. -/
def Fails (b : Build α) (r : Raised) : Prop := ∀ lines, (b lines).1 = .error r

theorem Fails.bind {b : Build α} {f : α → Build β} {r : Raised} (h : b.Fails r) :
    (b >>= f).Fails r := by
  intro lines
  have hr := h lines
  rcases hrun : b lines with ⟨x, lines'⟩
  rw [hrun] at hr
  subst hr
  rw [bind_run f hrun]
  rfl

theorem Makes.bind_fails {b : Build α} {f : α → Build β} {a : α} {r : Raised} (hb : b.Makes a)
    (hf : (f a).Fails r) : (b >>= f).Fails r := by
  intro lines
  have ha := hb lines
  rcases hrun : b lines with ⟨x, lines'⟩
  rw [hrun] at ha
  subst ha
  rw [bind_eq hrun]
  exact hf lines'

/-- Building in each mode comes to some of the results that are meant, or fails in all modes
alike. -/
def Alike (b : Mode → Build α) (Meant : (Mode → α) → Prop) : Prop :=
  (∃ a, Meant a ∧ ∀ mode, (b mode).Makes (a mode)) ∨ ∃ r, ∀ mode, (b mode).Fails r

theorem Alike.pure {a : Mode → α} {Meant : (Mode → α) → Prop} (h : Meant a) :
    Alike (fun mode => Pure.pure (a mode)) Meant := .inl ⟨a, h, fun mode => .pure (a mode)⟩

theorem Alike.imp {b : Mode → Build α} {Meant Meant' : (Mode → α) → Prop} (h : Alike b Meant)
    (himp : ∀ a, Meant a → Meant' a) : Alike b Meant' :=
  h.imp_left fun ⟨a, ha, hmakes⟩ => ⟨a, himp a ha, hmakes⟩

theorem Alike.bind {b : Mode → Build α} {f : Mode → α → Build β} {Meant : (Mode → α) → Prop}
    {Meant' : (Mode → β) → Prop} (h : Alike b Meant)
    (hf : ∀ a, Meant a → Alike (fun mode => f mode (a mode)) Meant') :
    Alike (fun mode => b mode >>= f mode) Meant' := by
  rcases h with ⟨a, ha, hmakes⟩ | ⟨r, hfails⟩
  · rcases hf a ha with ⟨c, hc, hmakes'⟩ | ⟨r, hfails⟩
    · exact .inl ⟨c, hc, fun mode => (hmakes mode).bind (hmakes' mode)⟩
    · exact .inr ⟨r, fun mode => (hmakes mode).bind_fails (hfails mode)⟩
  · exact .inr ⟨r, fun mode => (hfails mode).bind⟩

/-- What is built in one of the modes is one of the results that are meant. -/
theorem Alike.of_yields {b : Mode → Build α} {Meant : (Mode → α) → Prop} {mode : Mode} {c : α}
    (h : Alike b Meant) (hc : (b mode).Yields c) : ∃ a, Meant a ∧ c = a mode := by
  obtain ⟨lines, hc⟩ := hc
  rcases h with ⟨a, ha, hmakes⟩ | ⟨r, hfails⟩
  · rw [hmakes mode lines] at hc
    exact ⟨a, ha, (Except.ok.inj hc).symm⟩
  · rw [hfails mode lines] at hc
    cases hc

/-- What is decided without the mode. -/
theorem alike_ofExcept (x : Except Raised α) :
    Alike (fun _ => ofExcept x) fun a => ∃ u, x = .ok u ∧ a = fun _ => u := by
  cases x with
  | ok u => exact .inl ⟨fun _ => u, ⟨u, rfl, rfl⟩, fun _ => .ofExcept rfl⟩
  | error r => exact .inr ⟨r, fun _ _ => rfl⟩

theorem alike_log (level : LogLevel) (text : Mode → String) :
    Alike (fun mode => log level (text mode)) fun _ => True :=
  .inl ⟨fun _ => (), trivial, fun mode => .log level (text mode)⟩

theorem alike_ofFault (x : Except Fault α) :
    Alike (fun _ => ofFault x) fun a => ∃ u, x = .ok u ∧ a = fun _ => u := by
  cases x with
  | ok u => exact .inl ⟨fun _ => u, ⟨u, rfl, rfl⟩, fun _ => .ofFault rfl⟩
  | error e => exact .inr ⟨.fault e, fun _ _ => rfl⟩

end Build

namespace Schema

/-- A key of a record's schema: its own schema, and the validators of that. -/
structure Member where
  key : Value
  node : Value
  validator : Mode → Validator

/-- The schema of a record. -/
def nodeOf (members : List Member) : Value := .map (members.map fun m => (m.key, m.node))

/-- The fields of a record. -/
def fieldsOf (mode : Mode) (members : List Member) : List (Value × Step) :=
  members.map fun m => (m.key, (m.validator mode).step)

/-- The validators of a list, from those of its items. -/
def listOf (message : Value) (element : Mode → Validator) (mode : Mode) : Validator :=
  (Validator.create .array .null).andThen (.elements message (element mode).step)

/-- The validators of a record, from those of its members. -/
def recordOf (message : Value) (members : List Member) (mode : Mode) : Validator :=
  ⟨.object, .fields mode message (fieldsOf mode members)⟩

/-- A schema and the validators that it compiles to, one for each mode. The messages are left
open. -/
inductive Compiles : Value → (Mode → Validator) → Prop
  | leaf {v : Value} {u : Validator} : compileLeaf v = .ok u → Compiles v fun _ => u
  | array {v : Value} :
      v = .list [] ∨ v = .tuple [] → Compiles v fun _ => Validator.create .array .null
  | elements (message : Value) {v node : Value} {element : Mode → Validator} :
      v = .list [node] ∨ v = .tuple [node] → Compiles node element →
      Compiles v (listOf message element)
  | fields (message : Value) {members : List Member} :
      (∀ m ∈ members, Compiles m.node m.validator) → Compiles (nodeOf members)
      (recordOf message members)

variable {settings : Settings}

theorem compileElement_alike {message v : Value} {items : List Value}
    (hv : v = .list items ∨ v = .tuple items)
    (h : ∀ node ∈ items, Build.Alike (fun mode => compileNode mode settings .null node)
      (Compiles node)) :
    Build.Alike (fun mode => compileElement mode settings message items) (Compiles v) := by
  match items with
  | [] =>
    simp only [compileElement]
    exact .pure (.array hv)
  | [node] =>
    simp only [compileElement]
    refine (h node List.mem_cons_self).bind fun element helement => ?_
    exact .pure (.elements _ hv helement)
  | _ :: _ :: _ =>
    simp only [compileElement]
    exact .inr ⟨_, fun _ _ => rfl⟩

theorem compileLeaf_alike (v : Value) :
    Build.Alike (fun _ => Build.ofExcept (compileLeaf v)) (Compiles v) := by
  refine (Build.alike_ofExcept (compileLeaf v)).imp ?_
  rintro _ ⟨u, hu, rfl⟩
  exact .leaf hu

mutual

/-- In all modes alike, a node compiles or fails. -/
theorem compileNode_alike : ∀ v message : Value,
    Build.Alike (fun mode => compileNode mode settings message v) (Compiles v)
  | .list items, message => by
    simp only [compileNode]
    exact compileElement_alike (.inl rfl) (compileItems_alike items)
  | .tuple items, message => by
    simp only [compileNode]
    exact compileElement_alike (.inr rfl) (compileItems_alike items)
  | .map entries, message => by
    simp only [compileNode]
    refine (compileFields_alike entries).bind ?_
    rintro _ ⟨members, hmembers, rfl, rfl⟩
    refine (Build.alike_log .debug _).bind fun _ _ => ?_
    exact .pure (.fields _ hmembers)
  | .up _, message | .missing, message | .null, message | .bool _, message | .int _, message
  | .float _, message | .nan _, message | .text _, message | .bytes _, message | .set _, message
  | .moment _, message | .date _, message | .time _, message | .pattern _, message
  | .mode _, message
  | .type _, message | .object _, message | .function _, message | .validator _ _ _, message => by
    simp only [compileNode]
    exact compileLeaf_alike _
termination_by structural v => v

theorem compileItems_alike : ∀ items : List Value, ∀ node ∈ items,
    Build.Alike (fun mode => compileNode mode settings .null node) (Compiles node)
  | [], _, h => nomatch h
  | node :: rest, x, hx => by
    rcases List.mem_cons.1 hx with hx | hx
    · rw [hx]
      exact compileNode_alike node .null
    · exact compileItems_alike rest x hx
termination_by structural items => items

theorem compileFields_alike : ∀ entries : List (Value × Value),
    Build.Alike (fun mode => compileFields mode settings entries) fun fields =>
      ∃ members : List Member, (∀ m ∈ members, Compiles m.node m.validator) ∧
        entries = members.map (fun m => (m.key, m.node)) ∧ fields = fun mode =>
        fieldsOf mode members
  | [] => by
    simp only [compileFields]
    exact .pure ⟨[], nofun, rfl, rfl⟩
  | (key, node) :: rest => by
    simp only [compileFields]
    refine (Build.alike_ofFault key.plain).bind ?_
    rintro _ ⟨name, -, rfl⟩
    refine (compileNode_alike node _).bind fun validator hvalidator => ?_
    refine (compileFields_alike rest).bind ?_
    rintro _ ⟨members, hmembers, rfl, rfl⟩
    refine .pure ⟨⟨key, node, validator⟩ :: members, fun m hm => ?_, rfl, rfl⟩
    rcases List.mem_cons.1 hm with rfl | hm
    · exact hvalidator
    · exact hmembers m hm
termination_by structural entries => entries

end

/-- A schema compiles in all modes, below the path that is given, or it fails in all of them
alike. -/
theorem compile_alike (schema path message : Value) (settings : Settings) :
    Build.Alike (fun mode => compile schema (.mode mode) path message settings) fun u =>
      ∃ segments validator, path.iterate = .ok segments ∧ Compiles schema validator ∧
        u = fun mode => under segments (validator mode) := by
  have hmode : Build.Alike (fun mode => Build.ofExcept (Mode.parse (.mode mode))) fun found =>
      found = fun mode => mode := .inl ⟨_, rfl, fun _ => .ofExcept rfl⟩
  unfold compile
  refine hmode.bind ?_
  rintro _ rfl
  refine (Build.alike_ofFault path.iterate).bind ?_
  rintro _ ⟨segments, hsegments, rfl⟩
  refine (compileNode_alike schema message).bind fun validator hvalidator => ?_
  exact .pure ⟨segments, validator, hsegments, hvalidator, rfl⟩

/-- Whichever way the mode is given, what a schema compiles to is one of its validators below the
path. -/
theorem compile_yields {schema modeValue path message : Value} {settings : Settings} {u : Validator}
    (h : (compile schema modeValue path message settings).Yields u) : ∃ mode segments validator,
      path.iterate = .ok segments ∧ Compiles schema validator ∧
      u = under segments (validator mode) := by
  have hrest : ∀ mode : Mode, (do
      let segments ← Build.ofFault path.iterate
      return under segments (← compileNode mode settings message schema) :
        Build Validator).Yields u →
        ∃ mode segments validator, path.iterate = .ok segments ∧ Compiles schema validator ∧
          u = under segments (validator mode) := by
    intro mode h
    obtain ⟨segments, hsegments, h⟩ := h.bind
    obtain ⟨node, hnode, h⟩ := h.bind
    obtain ⟨validator, hvalidator, rfl⟩ := (compileNode_alike schema message).of_yields hnode
    exact ⟨mode, segments, validator, hsegments.ofFault, hvalidator, h.pure⟩
  unfold compile at h
  simp only at h
  split at h
  · obtain ⟨mode, -, h⟩ := h.bind
    exact hrest mode h
  · obtain ⟨mode, -, h⟩ := h.bind
    exact hrest mode h

/-! ## What validators come to -/

section
variable {w : World} {validator : Mode → Validator} {mode : Mode}

/-- What a validator comes to in a mode. -/
def comes (w : World) (validator : Mode → Validator) (mode : Mode) (v : Value) :
    Except Raised Value :=
  ((validator mode).step.program w [v]).outcome

/-- What a record or a list makes of what a validator comes to in a mode. -/
def judges (w : World) (validator : Mode → Validator) (mode : Mode) (v : Value) :
    Except Raised Value :=
  ((validator mode).step.program w [v]).judgement

/-- They differ only where the object of an exception is answered. -/
theorem judges_eq_comes (h : ∀ {v a}, comes w validator mode v = .ok a → a.trouble? = none) :
    judges w validator mode = comes w validator mode :=
  funext fun _ => Call.judgement_of_no_trouble fun _ => h

theorem comes_elements (message v : Value) (element : Mode → Validator) :
    comes w (listOf message element) mode v =
      Kind.array.coerce .null v >>= fun list =>
        ((Program.elements message ((element mode).step.program w)) [list]).outcome.mapError
          (Raised.promote list (.text "transform")) := by
  simp only [comes, listOf, Validator.andThen, Validator.create, Step.program, Program.andThen_eq,
    Program.guarded_eq, Call.outcome_next, Call.outcome_ofExcept, Call.outcome_mapRaised,
    firstArgument, List.headD_cons]

/-- What the coercion to a list accepts. -/
theorem coerce_array_eq_ok {message v u : Value} :
    Kind.array.coerce message v = .ok u ↔ ∃ items, v.sequence? = some items ∧ u = .list items := by
  cases hitems : v.sequence? with
  | none => simp [Kind.coerce, Kind.accepts?, hitems]
  | some items => simp [Kind.coerce, Kind.accepts?, hitems, eq_comm]

theorem comes_elements_ok (hw : w.NeverCancels) {message v u : Value} {element : Mode → Validator} :
    comes w (listOf message element) mode v = .ok u ↔
      ∃ items answers, v.sequence? = some items ∧
        List.Forall₂ (fun item answer => judges w element mode item = .ok answer) items answers ∧
        u = .list answers := by
  rw [comes_elements, Attempt.bind_eq_ok]
  simp only [Attempt.mapError_eq_ok, coerce_array_eq_ok,
    Program.elements_eq_ok_iff (Step.program_isCalm hw (element mode).step)]
  constructor
  · rintro ⟨_, ⟨items, hitems, rfl⟩, _, answers, hiterate, hanswers, rfl⟩
    rw [Value.iterate_list_of_isClosed (Value.sequence?_isClosed hitems)] at hiterate
    cases hiterate
    exact ⟨items, answers, hitems, hanswers, rfl⟩
  · rintro ⟨items, answers, hitems, hanswers, rfl⟩
    exact ⟨_, ⟨items, hitems, rfl⟩, items, answers,
      Value.iterate_list_of_isClosed (Value.sequence?_isClosed hitems), hanswers, rfl⟩

/-- The programs of a record. -/
def programs (w : World) (mode : Mode) (members : List Member) : List (Value × Program) :=
  Step.fieldPrograms w (fieldsOf mode members)

theorem programs_eq_map (w : World) (mode : Mode) (members : List Member) :
    programs w mode members = members.map fun m => (m.key, (m.validator mode).step.program w) := by
  rw [programs, Step.fieldPrograms_eq_map, fieldsOf, List.map_map]
  rfl

theorem programs_keys (w : World) (mode : Mode) (members : List Member) :
    (programs w mode members).map (·.1) = members.map (·.key) := by
  rw [programs_eq_map, List.map_map]
  rfl

/-- The program of a key is the one of the first member with that key. -/
theorem programFor?_programs (w : World) (mode : Mode) (members : List Member) (key : Value) :
    Fields.programFor? (programs w mode members) key =
      (members.find? fun m => m.key.same key).map fun m => (m.validator mode).step.program w := by
  rw [programs_eq_map, Fields.programFor?, List.find?_map, Option.map_map]
  rfl

/-- The program of a key is that of one member, and so it is in every mode. -/
theorem programFor?_some {members : List Member} {key : Value} {p : Program}
    (h : Fields.programFor? (programs w mode members) key = some p) :
    ∃ m ∈ members, p = (m.validator mode).step.program w ∧
      ∀ mode, Fields.programFor? (programs w mode members) key =
        some ((m.validator mode).step.program w) := by
  rw [programFor?_programs] at h
  obtain ⟨m, hm, rfl⟩ := Option.map_eq_some_iff.1 h
  refine ⟨m, List.mem_of_find?_eq_some hm, rfl, fun mode => ?_⟩
  rw [programFor?_programs, hm]
  rfl

/-- A key that has no program in one mode has none in any. -/
theorem programFor?_none {members : List Member} {key : Value}
    (h : Fields.programFor? (programs w mode members) key = none) (mode' : Mode) :
    Fields.programFor? (programs w mode' members) key = none := by
  rw [programFor?_programs, Option.map_eq_none_iff] at h ⊢
  exact h

theorem programs_areCalm (hw : w.NeverCancels) (mode : Mode) (members : List Member) :
    Fields.AreCalm (programs w mode members) := by
  intro e he
  rw [programs_eq_map] at he
  obtain ⟨m, -, rfl⟩ := List.mem_map.1 he
  exact Step.program_isCalm hw (m.validator mode).step

theorem comes_fields (message v : Value) (members : List Member) :
    comes w (recordOf message members) mode v =
      ((Program.fields mode message (programs w mode members)) [v]).outcome := by
  simp only [comes, recordOf, Step.program, programs]

theorem comes_fields_ok (hw : w.NeverCancels) {message v u : Value} {members : List Member} :
    comes w (recordOf message members) mode v = .ok u ↔
      ∃ input answers, v.entries? = some input ∧
        Fields.Answered mode (programs w mode members)
          (Fields.working mode (members.map (·.key)) input) answers ∧
        u = Fields.build mode answers := by
  rw [comes_fields, Program.fields_eq_ok_iff (programs_areCalm hw mode members), programs_keys]

end

/-- Under a path, what is raised is changed in one way for all validators. -/
theorem under_outcome (w : World) (segments : List Value) : ∃ f : Raised → Raised, ∀ u v,
    ((under segments u).call w [v]).settle.2 = ((u.step.program w [v]).outcome).mapError f := by
  simp only [Call.settle_snd, Validator.call, List.isEmpty_cons,
    Bool.false_eq_true, ite_false, under]
  by_cases hempty : segments.isEmpty
  · refine ⟨id, fun u v => ?_⟩
    rw [if_pos hempty]
    cases (u.step.program w [v]).outcome <;> rfl
  · apply Exists.intro
    intro u v
    rw [if_neg hempty, Step.program, Program.inside_eq]
    exact Call.outcome_mapRaised _ _

end Schema

end Attest
