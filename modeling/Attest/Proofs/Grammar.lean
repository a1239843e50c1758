import Attest.Proofs.Compiled
import Attest.Proofs.Records

/-!
# The grammar of schemas

Which values are schemas. The nodes of a value are met by going down through maps and through lists
of one item; a value is a schema if each of its nodes has one of the forms that mean something.
Compiling accepts just the schemas, under just the names of modes, and refuses everything else while
it builds, with a schema mistake. What it has built makes no such mistake when it is called.

* `Schema.Node`, `Value.isForm`: the nodes of a value, and what a node may be.
* `Build.Decides`: building succeeds if something holds, and is refused otherwise.
* `compileNode_decides`: one node, by recursion over the value.
* `Program.IsSetUp`: no call ends in a mistake of setting up, which holds of all that guards and
  composites make.
* `Schema.compile_accepts`: the grammar.
-/

namespace Attest

namespace Build

variable {α β : Type} {b : Build α} {f : α → Build β} {p q : Prop}

/-- From every log, building ends in one schema mistake. -/
def Refuses (b : Build α) : Prop := ∃ e, e.kind = .schema ∧ b.Fails (.setup e)

/-- Building comes to a result if something holds, and is refused otherwise. -/
def Decides (b : Build α) (p : Prop) : Prop := (p ∧ ∃ a, b.Makes a) ∨ (¬ p ∧ b.Refuses)

theorem Refuses.not_makes (h : b.Refuses) (a : α) : ¬ b.Makes a := by
  obtain ⟨e, -, hfails⟩ := h
  intro hmakes
  have hok := hmakes []
  rw [hfails []] at hok
  cases hok

theorem Refuses.bind (h : b.Refuses) (f : α → Build β) : (b >>= f).Refuses :=
  h.imp fun _ he => ⟨he.1, he.2.bind⟩

theorem Makes.bind_refuses {a : α} (hb : b.Makes a) (hf : (f a).Refuses) : (b >>= f).Refuses :=
  hf.imp fun _ he => ⟨he.1, hb.bind_fails he.2⟩

namespace Decides

theorem congr (h : b.Decides p) (hpq : p ↔ q) : b.Decides q := by
  rwa [← propext hpq]

theorem of_makes {a : α} (h : b.Makes a) : b.Decides True := .inl ⟨trivial, a, h⟩

theorem bind (h : b.Decides p) (hf : ∀ a, (f a).Decides q) : (b >>= f).Decides (p ∧ q) := by
  rcases h with ⟨hp, a, hmakes⟩ | ⟨hp, hrefuses⟩
  · rcases hf a with ⟨hq, c, hmakes'⟩ | ⟨hq, hrefuses⟩
    · exact .inl ⟨⟨hp, hq⟩, c, hmakes.bind hmakes'⟩
    · exact .inr ⟨fun hpq => hq hpq.2, hmakes.bind_refuses hrefuses⟩
  · exact .inr ⟨fun hpq => hp hpq.1, hrefuses.bind f⟩

/-- What is built next is certain. -/
theorem then_makes (h : b.Decides p) (hf : ∀ a, ∃ c, (f a).Makes c) : (b >>= f).Decides p :=
  (h.bind fun a => (hf a).elim fun _ hc => of_makes hc).congr (and_iff_left trivial)

theorem after_makes {a : α} (hb : b.Makes a) (hf : (f a).Decides p) : (b >>= f).Decides p :=
  hf.imp (.imp_right fun ⟨c, hc⟩ => ⟨c, hb.bind hc⟩) (.imp_right hb.bind_refuses)

theorem makes_iff (h : b.Decides p) : (∃ a, b.Makes a) ↔ p := by
  rcases h with ⟨hp, hmakes⟩ | ⟨hp, hrefuses⟩
  · exact iff_of_true hmakes hp
  · exact iff_of_false (fun ⟨a, ha⟩ => hrefuses.not_makes a ha) hp

theorem makes_or_refuses (h : b.Decides p) : (∃ a, b.Makes a) ∨ b.Refuses :=
  h.imp And.right And.right

end Decides

end Build

/-! ## Forms -/

namespace Value

/-- Whether a node may look like this: a validator, a sample, a pattern, something that can be
called, a list of one schema at most, or a map. -/
def isForm : Value → Bool
  | .validator _ _ _ | .bool _ | .int _ | .float _ | .nan _ | .text _ | .mode _ | .moment _
  | .date _ | .pattern _
  | .type _ | .function _ | .map _ => true
  | .list items | .tuple items => items.length ≤ 1
  | _ => false

/-- Whether a value has no nodes below it, whatever they are. -/
def isLeaf : Value → Bool
  | .list _ | .tuple _ | .map _ => false
  | _ => true

/-- Whether a value ends: nothing in it stands for what is around it, and the keys of its maps are
texts. -/
def isTree (v : Value) : Bool :=
  v.everywhere
    (fun
      | .up _ => false
      | _ => true)
    fun keys _ => keys.all fun key => key.asText?.isSome

theorem isTree_list {items : List Value} :
    (Value.list items).isTree = true ↔ ∀ v ∈ items, v.isTree = true := by
  simp only [isTree, everywhere, List.all_nil, Bool.true_and, everywhereAll_iff]

theorem isTree_tuple {items : List Value} :
    (Value.tuple items).isTree = true ↔ ∀ v ∈ items, v.isTree = true := by
  simp only [isTree, everywhere, List.all_nil, Bool.true_and, everywhereAll_iff]

theorem isTree_entry {entries : List (Value × Value)} (h : (Value.map entries).isTree = true) :
    ∀ e ∈ entries, e.1.asText?.isSome = true ∧ e.2.isTree = true := by
  simp only [isTree, everywhere, Bool.and_eq_true, List.all_map, List.all_eq_true,
    everywhereEntries_iff] at h
  exact fun e he => ⟨h.1 e he, (h.2 e he).2⟩

theorem plain_of_asText? {key : Value} (h : key.asText?.isSome = true) :
    ∃ name, key.plain = .ok name := by
  cases key with
  | text s => exact ⟨s, rfl⟩
  | mode m => exact ⟨_, rfl⟩
  | _ => cases h

end Value

namespace Schema

/-- The nodes of a value: itself, and those of what is in it, where it is a map or a list of one
item. -/
inductive Node : Value → Value → Prop where
  | here (v : Value) : Node v v
  | item {node u : Value} : Node u node → Node u (.list [node])
  | tupleItem {node u : Value} : Node u node → Node u (.tuple [node])
  | entry {entries : List (Value × Value)} {e : Value × Value} {u : Value} :
    e ∈ entries → Node u e.2 → Node u (.map entries)

/-- Every node of the value is of one of the forms. -/
def IsSchema (v : Value) : Prop := ∀ u, Node u v → u.isForm = true

variable {v node : Value} {items : List Value} {entries : List (Value × Value)}

theorem isSchema_items (hv : v = .list items ∨ v = .tuple items) :
    IsSchema v ↔ items.length ≤ 1 ∧ ∀ node ∈ items, IsSchema node := by
  constructor
  · intro h
    have hlength : items.length ≤ 1 := by
      rcases hv with rfl | rfl <;> simpa [Value.isForm] using h _ (.here _)
    refine ⟨hlength, fun node hnode u hu => ?_⟩
    match items, hlength with
    | [_], _ =>
      obtain rfl := List.mem_singleton.1 hnode
      rcases hv with rfl | rfl
      · exact h u (.item hu)
      · exact h u (.tupleItem hu)
  · rintro ⟨hlength, h⟩ u hu
    rcases hv with rfl | rfl
    · cases hu with
      | here => simpa [Value.isForm] using hlength
      | item hu => exact h _ List.mem_cons_self u hu
    · cases hu with
      | here => simpa [Value.isForm] using hlength
      | tupleItem hu => exact h _ List.mem_cons_self u hu

theorem isSchema_list : IsSchema (.list items) ↔ items.length ≤ 1 ∧ ∀ v ∈ items, IsSchema v :=
  isSchema_items (.inl rfl)

theorem isSchema_tuple : IsSchema (.tuple items) ↔ items.length ≤ 1 ∧ ∀ v ∈ items, IsSchema v :=
  isSchema_items (.inr rfl)

theorem isSchema_map : IsSchema (.map entries) ↔ ∀ e ∈ entries, IsSchema e.2 := by
  constructor
  · exact fun h e he u hu => h u (.entry he hu)
  · intro h u hu
    cases hu with
    | here => rfl
    | entry he hu => exact h _ he u hu

/-- A value without nodes below it is a schema if it is of one of the forms itself. -/
theorem isSchema_leaf (hleaf : v.isLeaf = true) : IsSchema v ↔ v.isForm = true := by
  constructor
  · exact fun h => h v (.here v)
  · intro h u hu
    cases hu with
    | here => exact h
    | item | tupleItem | entry => cases hleaf

/-! ## Nodes -/

theorem compileLeaf_decides (htree : v.isTree = true) (hleaf : v.isLeaf = true) :
    (Build.ofExcept (compileLeaf v)).Decides (v.isForm = true) := by
  cases v with
  | list | tuple | map => cases hleaf
  | up n => cases htree
  | type t => cases t <;> exact .inl ⟨rfl, _, .ofExcept rfl⟩
  | missing | null | bytes | set | time | object => exact .inr ⟨nofun, _, rfl, fun _ => rfl⟩
  | _ => exact .inl ⟨rfl, _, .ofExcept rfl⟩

mutual

/-- Compiling a node succeeds if it is a schema, and is refused otherwise. -/
theorem compileNode_decides (mode : Mode) (settings : Settings) :
    ∀ (message v : Value), v.isTree = true →
    (compileNode mode settings message v).Decides (IsSchema v)
  | message, .list items, h => by
    rw [compileNode]
    exact (compileElement_decides mode settings message items (Value.isTree_list.1 h)).congr
      isSchema_list.symm
  | message, .tuple items, h => by
    rw [compileNode]
    exact (compileElement_decides mode settings message items (Value.isTree_tuple.1 h)).congr
      isSchema_tuple.symm
  | message, .map entries, h => by
    rw [compileNode]
    have hfields := compileFields_decides mode settings entries (Value.isTree_entry h)
    refine (hfields.then_makes fun fields => ?_).congr isSchema_map.symm
    exact ⟨⟨.object, .fields mode (message.orElse settings.message) fields⟩,
      (Build.Makes.log _ _).bind (.pure _)⟩
  | message, .missing, h | message, .null, h | message, .bool _, h | message, .int _, h
  | message, .float _, h
  | message, .nan _, h | message, .text _, h | message, .bytes _, h | message, .set _, h
  | message, .moment _, h
  | message, .date _, h | message, .time _, h | message, .pattern _, h | message, .mode _, h
  | message, .type _, h
  | message, .object _, h | message, .function _, h | message, .validator _ _ _, h
  | message, .up _, h => by
    rw [compileNode]
    · exact (compileLeaf_decides h rfl).congr (isSchema_leaf rfl).symm
    all_goals nofun

theorem compileElement_decides (mode : Mode) (settings : Settings) :
    ∀ (message : Value) (items : List Value), (∀ v ∈ items, v.isTree = true) →
      (compileElement mode settings message items).Decides
        (items.length ≤ 1 ∧ ∀ v ∈ items, IsSchema v)
  | message, [], _ => by
    rw [compileElement]
    exact .inl ⟨⟨by decide, List.forall_mem_nil _⟩, _, .pure _⟩
  | message, [node], h => by
    rw [compileElement]
    have hnode := compileNode_decides mode settings .null node (h node List.mem_cons_self)
    refine (hnode.then_makes fun _ => ⟨_, .pure _⟩).congr ?_
    rw [List.forall_mem_singleton, List.length_singleton, and_iff_right (Nat.le_refl 1)]
  | message, node :: second :: rest, h => by
    rw [compileElement]
    · exact .inr ⟨by simp, _, rfl, fun _ => rfl⟩
    all_goals nofun

theorem compileFields_decides (mode : Mode) (settings : Settings) :
    ∀ entries : List (Value × Value), (∀ e ∈ entries, e.1.asText?.isSome = true ∧
      e.2.isTree = true) →
      (compileFields mode settings entries).Decides (∀ e ∈ entries, IsSchema e.2)
  | [], _ => by
    rw [compileFields]
    exact .inl ⟨List.forall_mem_nil _, _, .pure _⟩
  | (key, node) :: rest, h => by
    rw [compileFields]
    obtain ⟨⟨hkey, hnode⟩, hrest⟩ := List.forall_mem_cons.1 h
    obtain ⟨name, hname⟩ := Value.plain_of_asText? hkey
    have hmember := compileNode_decides mode settings (.text (memberMessage name)) node hnode
    have hmore := compileFields_decides mode settings rest hrest
    refine (Build.Decides.after_makes (.ofFault hname) ?_).congr List.forall_mem_cons.symm
    exact hmember.bind fun _ => hmore.then_makes fun _ => ⟨_, .pure _⟩

end

/-! ## Modes -/

/-- Whether a value is a mode or the name of one, in any case and with blanks around it. -/
def NamesMode (v : Value) : Prop :=
  (∃ m, v = .mode m) ∨ ∃ s m, v = .text s ∧ Text.upper (Text.trim s) = Mode.name m

theorem ofName?_isSome {s : String} : (Mode.ofName? s).isSome = true ↔ ∃ m, s = Mode.name m := by
  rw [Mode.ofName?, List.find?_isSome]
  constructor
  · rintro ⟨m, -, hm⟩
    exact ⟨m, (beq_iff_eq.1 hm).symm⟩
  · rintro ⟨m, rfl⟩
    exact ⟨m, by cases m <;> decide, beq_self_eq_true _⟩

theorem shown_of_isWritable (hv : v.isWritable = true) : ∃ shown, v.shown = .ok shown := by
  cases hshown : v.shown with
  | ok shown => exact ⟨shown, rfl⟩
  | error e =>
    have hlong := Value.isWritable_eq_false_of_isShort (Value.shown_error hshown).2
    rw [hv] at hlong
    cases hlong

theorem parse_decides (hv : v.isWritable = true) :
    (Build.ofExcept (Mode.parse v)).Decides (NamesMode v) := by
  obtain ⟨shown, hshown⟩ := shown_of_isWritable hv
  have hrefuses : ∀ context, (Build.ofExcept (.error
      (Raised.schema ("Invalid completion mode: " ++ shown) context)) : Build Mode).Refuses :=
    fun _ => ⟨_, rfl, fun _ => rfl⟩
  cases v with
  | mode m => exact .inl ⟨.inl ⟨m, rfl⟩, m, .ofExcept rfl⟩
  | text s =>
    have hnames : NamesMode (.text s) ↔
      (Mode.ofName? (Text.upper (Text.trim s))).isSome = true := by
      rw [ofName?_isSome]
      simp [NamesMode]
    refine Build.Decides.congr ?_ hnames.symm
    simp only [Mode.parse, hshown]
    cases Mode.ofName? (Text.upper (Text.trim s)) with
    | some m => exact .inl ⟨rfl, m, .ofExcept rfl⟩
    | none => exact .inr ⟨nofun, hrefuses _⟩
  | _ =>
    refine .inr ⟨?_, ?_⟩
    · rintro (⟨m, hm⟩ | ⟨s, m, hs, -⟩)
      · cases hm
      · cases hs
    · simp only [Mode.parse, hshown]
      exact hrefuses _

/-! ## Whole schemas -/

theorem compile_eq (schema modeName path message : Value) (settings : Settings) :
    compile schema modeName path message settings = (do
      let mode ← Build.ofExcept (modeOf settings modeName)
      let path ← Build.ofFault path.iterate
      return under path (← compileNode mode settings message schema)) := by
  cases modeName <;> rfl

theorem compile_decides {schema modeName path message : Value} {settings : Settings}
    {segments : List Value} (hschema : schema.isTree = true) (hmode : modeName.isWritable = true)
    (hpath : path.iterate = .ok segments) :
    (compile schema modeName path message settings).Decides
      ((modeName = .null ∨ NamesMode modeName) ∧ IsSchema schema) := by
  have hparsed : (Build.ofExcept (modeOf settings modeName)).Decides (modeName = .null ∨
    NamesMode modeName) := by
    by_cases hnull : modeName = .null
    · rw [hnull]
      exact .inl ⟨.inl rfl, _, .ofExcept rfl⟩
    · have hmeant : modeOf settings modeName = Mode.parse modeName := by
        rw [modeOf]
        exact hnull
      rw [hmeant]
      exact (parse_decides hmode).congr (or_iff_right hnull).symm
  rw [compile_eq]
  refine hparsed.bind fun mode => .after_makes (.ofFault hpath) ?_
  exact (compileNode_decides mode settings message schema hschema).then_makes fun _ => ⟨_, .pure _⟩

end Schema

/-! ## Calls -/

namespace Raised

theorem fail_ne_setup (p : Notice.Parts) (e : SetupError) : fail p ≠ .setup e := by
  rw [fail]
  intro h
  cases hmake : Failure.make p [] with
  | ok f =>
    rw [hmake] at h
    cases h
  | error f =>
    rw [hmake] at h
    cases h

theorem promote_ne_setup (r : Raised) (got comparison : Value) (e : SetupError) :
    r.promote got comparison ≠ .setup e := by
  cases r with
  | failure | cancelled =>
    intro h
    cases h
  | setup | fault => exact fail_ne_setup _ e

end Raised

theorem Finding.ofRaised_ne_setup (item : Value) (r : Raised) (e : SetupError) :
    Finding.ofRaised item r ≠ .error (.setup e) := by
  have hpromote := r.promote_ne_setup item (.text "struct") e
  intro hraised
  unfold Finding.ofRaised at hraised
  split at hraised
  · cases hraised
  · exact hpromote (Except.error.inj hraised)

theorem Entry.find_ne_setup (entry : Entry) (e : SetupError) :
    entry.find.outcome ≠ .error (.setup e) := by
  intro h
  cases entry with
  | judged segment item p =>
    simp only [find] at h
    split at h
    · cases h
    · next r _ =>
      cases hr : Finding.ofRaised item r with
      | ok f =>
        rw [hr] at h
        cases h
      | error r' =>
        rw [hr] at h
        cases h
        exact Finding.ofRaised_ne_setup item r e hr
    · cases h
  | refused _ verdict => cases verdict <;> cases h
  | kept => cases h

theorem Finding.settled_ne_setup (f : Finding) (e : SetupError) :
    f.settled ≠ .error (.setup e) := by
  intro h
  unfold settled at h
  split at h
  · split at h
    · split at h
      · exact ofRaised_ne_setup _ _ e h
      · cases h
    · exact ofRaised_ne_setup _ _ e h
  · cases h

namespace Composite

theorem settleAll_ne_setup (findings : List (Value × Finding)) (e : SetupError) :
    settleAll findings ≠ .error (.setup e) := by
  unfold settleAll
  split
  · nofun
  · intro h
    obtain ⟨⟨segment, f⟩, -, hf⟩ := Attempt.exists_of_mapM_error h
    rcases Attempt.bind_eq_error.1 hf with hf | ⟨_, _, hf⟩
    · exact f.settled_ne_setup e hf
    · cases hf

theorem collect_ne_setup (c : Composite) (entries : List Entry) (e : SetupError) :
    (c.collect entries).outcome ≠ .error (.setup e) := by
  have hconclude : ∀ findings, (c.conclude findings).2 ≠ .error (.setup e) := by
    intro findings
    unfold conclude
    split
    · nofun
    · split <;> nofun
  unfold collect
  rw [Call.outcome_next, Entry.findAll_outcome]
  intro h
  rcases Attempt.bind_eq_error.1 h with h | ⟨findings, -, h⟩
  · obtain ⟨entry, -, hentry⟩ := Attempt.exists_of_mapM_error h
    exact entry.find_ne_setup e hentry
  · split at h
    · have hsettles := settleAll_ne_setup findings e
      simp only [Call.outcome, awaiting] at h
      cases hfindings : settleAll findings with
      | ok settled =>
        rw [hfindings] at h
        exact hconclude settled h
      | error r =>
        rw [hfindings] at h hsettles
        exact hsettles (congrArg Except.error (Except.error.inj h))
    · rw [Call.outcome_after, Call.outcome_ofExcept] at h
      exact hconclude findings h

end Composite

/-- Whether no call of a program ends in a mistake of setting up. -/
def Program.IsSetUp (p : Program) : Prop := ∀ args e, (p args).outcome ≠ .error (.setup e)

namespace Program

theorem guarded_isSetUp (p : Program) (comparison : Value) : (p.guarded comparison).IsSetUp := by
  intro args e h
  rw [guarded_eq, Call.outcome_mapRaised] at h
  cases hp : (p args).outcome with
  | ok a =>
    rw [hp] at h
    cases h
  | error r =>
    rw [hp] at h
    exact r.promote_ne_setup _ comparison e (Except.error.inj h)

theorem andThen_isSetUp {p : Program} (hp : p.IsSetUp) (q : Program) : (p.andThen q).IsSetUp := by
  intro args e h
  rw [andThen_eq, Call.outcome_next] at h
  rcases Attempt.bind_eq_error.1 h with h | ⟨a, -, h⟩
  · exact hp args e h
  · exact guarded_isSetUp q _ [a] e h

theorem fields_isSetUp (mode : Mode) (message : Value) (validators : List (Value × Program)) :
    (fields mode message validators).IsSetUp := by
  intro args e
  unfold fields
  simp only
  split
  · exact fun h => Raised.fail_ne_setup _ e (Except.error.inj h)
  · exact Composite.collect_ne_setup _ _ e

theorem inside_setup {p : Program} {path args : List Value} {e : SetupError}
    (h : ((p.inside path) args).outcome = .error (.setup e)) :
    (p args).outcome = .error (.setup e) := by
  rw [inside_eq, Call.outcome_mapRaised] at h
  cases hp : (p args).outcome with
  | ok a =>
    rw [hp] at h
    cases h
  | error r =>
    rw [hp] at h
    cases r with
    | failure f =>
      have hmoved := Except.error.inj h
      simp only [Raised.ofFailure] at hmoved
      split at hmoved <;> cases hmoved
    | setup | fault | cancelled => exact congrArg Except.error (Except.error.inj h)

end Program

theorem Kind.coerce_ne_setup (kind : Kind) (message v : Value) (e : SetupError) :
    kind.coerce message v ≠ .error (.setup e) := by
  unfold coerce
  split
  · nofun
  · exact fun h => Raised.fail_ne_setup _ e (Except.error.inj h)
  · nofun

namespace Schema

variable {mode : Mode} {settings : Settings} {message v : Value} {u : Validator}

theorem compileElement_isSetUp {items : List Value}
    (h : (compileElement mode settings message items).Yields u) (w : World) :
    (u.step.program w).IsSetUp := by
  have hlist : (Step.program w (.coerce .array .null)).IsSetUp := fun args e => by
    rw [Step.program, Call.outcome_ofExcept]
    exact Kind.coerce_ne_setup _ _ _ e
  match items with
  | [] =>
    rw [compileElement] at h
    rw [h.pure]
    exact hlist
  | [node] =>
    rw [compileElement] at h
    obtain ⟨element, -, h⟩ := h.bind
    rw [h.pure]
    exact Program.andThen_isSetUp hlist _
  | _ :: _ :: _ =>
    rw [compileElement] at h
    · exact h.throw.elim
    all_goals nofun

theorem compileLeaf_isSetUp (h : compileLeaf v = .ok u)
    (hv : ∀ kind step id, v ≠ .validator kind step id) (w : World) :
    (u.step.program w).IsSetUp := by
  have hcoerce : ∀ kind, (Step.program w (.coerce kind .null)).IsSetUp := fun kind args e => by
    rw [Step.program, Call.outcome_ofExcept]
    exact Kind.coerce_ne_setup _ _ _ e
  have hcreate : ∀ kind, ((Validator.create kind .null).step.program w).IsSetUp := fun kind => by
    cases kind with
    | any => exact fun args e => nofun
    | _ => exact hcoerce _
  unfold compileLeaf at h
  split at h
  · exact absurd rfl (hv _ _ _)
  · cases h
    exact Program.andThen_isSetUp (hcreate _) _
  · split at h
    · cases h
      exact hcreate _
    · cases h
      exact Program.guarded_isSetUp _ _
  · cases h
    exact Program.guarded_isSetUp _ _
  · cases h
  · split at h
    · cases h
      exact hcreate _
    · cases h

/-- What a node compiles to is set up, unless the node brings its own validator. -/
theorem compileNode_isSetUp (h : (compileNode mode settings message v).Yields u)
    (hv : ∀ kind step id, v ≠ .validator kind step id) (w : World) :
    (u.step.program w).IsSetUp := by
  unfold compileNode at h
  split at h
  · exact compileElement_isSetUp h w
  · exact compileElement_isSetUp h w
  · obtain ⟨fields, -, rfl⟩ := compileNode_map_yields h
    exact Program.fields_isSetUp _ _ _
  · exact compileLeaf_isSetUp h.ofExcept hv w

theorem under_setup {segments args : List Value} {w : World} {e : SetupError}
    (h : ((under segments u).call w args).outcome = .error (.setup e)) :
    (u.call w args).outcome = .error (.setup e) := by
  unfold under at h
  split at h
  · exact h
  · exact Program.inside_setup h

/-- Compiling accepts just the schemas, under just the names of modes. It refuses everything else at
once with a schema mistake, and what it has built makes no mistake of setting up when it is called:
one that comes out of a call is one of the validator that the schema is. -/
theorem compile_accepts {schema modeName path message : Value} {settings : Settings}
    {segments : List Value} (hschema : schema.isTree = true) (hmode : modeName.isWritable = true)
    (hpath : path.iterate = .ok segments) :
    ((∃ u, (compile schema modeName path message settings).Makes u) ↔
      (modeName = .null ∨ NamesMode modeName) ∧ ∀ node, Node node schema → node.isForm = true) ∧
    ((∃ u, (compile schema modeName path message settings).Makes u) ∨
      ∃ e, e.kind = .schema ∧ (compile schema modeName path message settings).Fails (.setup e)) ∧
    ∀ u w args e, (compile schema modeName path message settings).Makes u →
      (u.call w args).outcome = .error (.setup e) →
      ∃ kind step id, schema = .validator kind step id ∧
        (Validator.call ⟨kind, step⟩ w args).outcome = .error (.setup e) := by
  have hdecides :=
    @compile_decides schema modeName path message settings segments hschema hmode hpath
  refine ⟨hdecides.makes_iff, hdecides.makes_or_refuses, ?_⟩
  intro u w args e hmakes hcall
  obtain ⟨mode, path, node, -, -, hnode, rfl⟩ := compile_yields_node ⟨[], hmakes []⟩
  have hcall := under_setup hcall
  by_cases hv : ∃ kind step id, schema = .validator kind step id
  · obtain ⟨kind, step, id, rfl⟩ := hv
    rw [compileNode] at hnode
    · cases hnode.ofExcept
      exact ⟨kind, step, id, rfl, hcall⟩
    all_goals nofun
  · have hv : ∀ kind step id, schema ≠ .validator kind step id :=
      fun kind step id h => hv ⟨kind, step, id, h⟩
    exact absurd hcall (compileNode_isSetUp hnode hv w _ e)

/-- A record of tags and a day under the name of a mode, and a list of two schemas inside a
record. -/
theorem compile_accepts_tags :
    let tags := Value.map [(.text "tags", .list [.type .text]), (.text "day", .date ⟨2024, 1, 1⟩)]
    let pair := Value.map [(.text "tags", .list [.type .text, .null])]
    let name := Value.text " partial "
    let path := Value.list [.text "order"]
    tags.isTree = true ∧ pair.isTree = true ∧ name.isWritable = true ∧
      path.iterate = .ok [.text "order"] ∧
      (∃ u, (compile tags name path .null Settings.default).Makes u) ∧
      ∃ e, e.kind = .schema ∧ (compile pair name path .null Settings.default).Fails (.setup e) := by
  intro tags pair name path
  have htags : tags.isTree = true := by decide
  have hpair : pair.isTree = true := by decide
  have hpath : path.iterate = .ok [.text "order"] := rfl
  have hname : NamesMode name := .inr ⟨_, .given, rfl, by decide +kernel⟩
  have hforms : IsSchema tags := by
    have htext : IsSchema (.type .text) := (isSchema_leaf rfl).2 rfl
    have hday : IsSchema (.date ⟨2024, 1, 1⟩) := (isSchema_leaf rfl).2 rfl
    simp [tags, isSchema_map, isSchema_list, htext, hday]
  obtain ⟨haccepts, -⟩ := @compile_accepts tags name path .null Settings.default _ htags rfl hpath
  obtain ⟨hpairs, hrefused, -⟩ :=
    @compile_accepts pair name path .null Settings.default _ hpair rfl hpath
  refine ⟨htags, hpair, rfl, hpath, haccepts.2 ⟨.inr hname, hforms⟩,
    hrefused.resolve_left fun hmakes => ?_⟩
  have hlist := (hpairs.1 hmakes).2 _ (.entry List.mem_cons_self (.here _))
  cases hlist

end Schema

end Attest
