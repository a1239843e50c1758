import Attest.Proofs.Containment
import Attest.Method

/-!
# Built validators

Validators that are built by kind, from functions, as choices, from schemas and by chaining, and
never from a step that is taken as it is. All of them are tame, however they are put together.

* `Validator.Built`: how validators are built.
* `Built.isTame`: what is built is tame.
* `call_contained`: nothing but failures comes out of the call of what is built.
-/

namespace Attest

/-! ## Building -/

namespace Build

/-- From some log, building comes to a result. -/
def Yields {α : Type} (b : Build α) (a : α) : Prop := ∃ lines, (b lines).1 = .ok a

/-- From every log, building comes to a result. -/
def Makes {α : Type} (b : Build α) (a : α) : Prop := ∀ lines, (b lines).1 = .ok a

variable {α β : Type}

theorem bind_run {b : Build α} (f : α → Build β) {x : Except Raised α} {lines lines' : List LogLine}
    (h : b lines = (x, lines')) : (b >>= f) lines = ExceptT.bindCont f x lines' := by
  simp only [Bind.bind, ExceptT.bind, ExceptT.mk, StateT.bind, h]

/-- Building goes on with what was built, and with the log as it was left. -/
theorem bind_eq {b : Build α} {f : α → Build β} {a : α} {lines lines' : List LogLine}
    (h : b lines = (.ok a, lines')) : (b >>= f) lines = f a lines' := by
  rw [bind_run f h]
  rfl

theorem Makes.bind {b : Build α} {f : α → Build β} {a : α} {c : β} (hb : b.Makes a)
    (hf : (f a).Makes c) : (b >>= f).Makes c := by
  intro lines
  have ha := hb lines
  rcases hrun : b lines with ⟨x, lines'⟩
  rw [hrun] at ha
  subst ha
  rw [bind_eq hrun]
  exact hf lines'

theorem Makes.pure (a : α) : (Pure.pure a : Build α).Makes a := fun _ => rfl

theorem Makes.log (level : LogLevel) (text : String) :
    (Build.log level text).Makes () := fun _ => rfl

theorem Makes.ofExcept {x : Except Raised α} {a : α} (h : x = .ok a) :
    (Build.ofExcept x).Makes a := fun _ => h

theorem Makes.ofFault {x : Except Fault α} {a : α} (h : x = .ok a) : (Build.ofFault x).Makes a := by
  intro lines
  rw [h]
  rfl

/-- What can be written has a text. -/
theorem Makes.plain {v : Value} (h : v.isWritable = true) : ∃ text, (Build.plain v).Makes text := by
  cases hv : v.plain with
  | ok text => exact ⟨text, .ofFault hv⟩
  | error e =>
    have hlong := Value.isWritable_eq_false_of_isShort (Value.plain_error hv).2
    rw [h] at hlong
    cases hlong

theorem Yields.bind {b : Build α} {f : α → Build β} {c : β} (h : (b >>= f).Yields c) :
    ∃ a, b.Yields a ∧ (f a).Yields c := by
  obtain ⟨lines, h⟩ := h
  rcases hb : b lines with ⟨x, lines'⟩
  rw [bind_run f hb] at h
  cases x with
  | ok a => exact ⟨a, ⟨lines, by rw [hb]⟩, lines', h⟩
  | error r => cases h

theorem Yields.pure {a b : α} (h : (Pure.pure a : Build α).Yields b) : b = a := by
  obtain ⟨lines, h⟩ := h
  cases h
  rfl

theorem Yields.throw {r : Raised} {a : α} (h : (throw r : Build α).Yields a) : False := by
  obtain ⟨lines, h⟩ := h
  cases h

theorem Yields.ofExcept {x : Except Raised α} {a : α} (h : (Build.ofExcept x).Yields a) :
    x = .ok a := by
  obtain ⟨lines, h⟩ := h
  exact h

theorem Yields.ofFault {x : Except Fault α} {a : α} (h : (Build.ofFault x).Yields a) :
    x = .ok a := by
  obtain ⟨lines, h⟩ := h
  cases x with
  | ok b =>
    cases h
    rfl
  | error e => cases h

/-- Every result of building has a property, from whatever log. -/
def Only (P : α → Prop) (b : Build α) : Prop := ∀ a, b.Yields a → P a

theorem Only.pure {P : α → Prop} {a : α} (h : P a) : Only P (Pure.pure a) := fun _ hb => hb.pure ▸ h

theorem Only.bind {P : β → Prop} {b : Build α} {f : α → Build β}
    (h : ∀ a, b.Yields a → Only P (f a)) :
    Only P (b >>= f) := fun c hc => by
  obtain ⟨a, ha, hc⟩ := hc.bind
  exact h a ha c hc

theorem Only.ofExcept {P : α → Prop} {x : Except Raised α} (h : ∀ a, x = .ok a → P a) :
    Only P (Build.ofExcept x) := fun a ha => h a ha.ofExcept

theorem Only.throw {P : α → Prop} (r : Raised) : Only P (throw r) := fun _ ha => ha.throw.elim

end Build

/-! ## Tame parts -/

/-- Whether the messages of all validators inside a value are texts. -/
def Value.isTyped (v : Value) : Bool :=
  v.everywhere
    (fun
      | .validator _ step _ => step.isTame true
      | _ => true)
    fun _ _ => true

/-- Whether a value is a tame validator, or no validator at all. -/
def Value.isTameNode (raw : Bool) : Value → Bool
  | .validator _ step _ => step.isTame raw
  | _ => true

/-- Settings whose messages are texts, as all settings that were checked are. -/
structure Settings.HasTexts (s : Settings) : Prop where
  message : s.message.isTemplate = true
  arrayMessage : s.arrayMessage.isTemplate = true

theorem Value.isMessage_of_isTemplate {v : Value} (h : v.isTemplate = true) :
    v.isMessage = true := by
  unfold isMessage
  split
  · rfl
  · exact h

theorem Value.orElse_isTemplate {message fallback : Value} (h : message.isMessage = true)
    (hf : fallback.isTemplate = true) : (message.orElse fallback).isTemplate = true := by
  unfold orElse
  split
  · next ht =>
    unfold isMessage at h
    split at h
    · cases ht
    · exact h
  · exact hf

theorem Value.isTameNode_of_isTyped {v : Value} (h : v.isTyped = true) :
    v.isTameNode true = true := by
  cases v with
  | validator kind step id => exact h
  | _ => rfl

theorem Value.toCallable_isTame {v : Value} (h : v.isTyped = true) :
    v.toCallable.isTame true = true := by
  cases v with
  | validator kind step id =>
    simp only [toCallable, asCallable?, Option.getD_some, Callable.isTame]
    exact h
  | _ => simp [toCallable, asCallable?, Callable.isTame]

mutual

/-- What is tame is tame where calls need not be guarded. -/
theorem Callable.isTame_raise : ∀ (c : Callable) (raw : Bool), c.isTame raw = true →
    c.isTame true = true
  | .step s, raw => by
    simp only [Callable.isTame]
    exact Step.isTame_raise s raw
  | .function _, _ | .type _, _ | .nothing _, _ => by simp [Callable.isTame]

theorem Change.isTame_raise : ∀ (c : Change) (raw : Bool), c.isTame raw = true →
    c.isTame true = true
  | .apply f, raw => by
    simp only [Change.isTame]
    exact Callable.isTame_raise f raw
  | .trim, _ | .lower, _ | .upper, _ | .power _, _ => by simp [Change.isTame]

theorem Step.isTame_raise : ∀ (s : Step) (raw : Bool), s.isTame raw = true → s.isTame true = true
  | .call f, raw => by
    simp only [Step.isTame]
    exact Callable.isTame_raise f raw
  | .change c, raw => by
    simp only [Step.isTame]
    exact Change.isTame_raise c raw
  | .andThen s t, raw => by
    simp only [Step.isTame, Bool.and_eq_true]
    exact fun h => ⟨Step.isTame_raise s raw h.1, h.2⟩
  | .elements _ _, raw => by
    simp only [Step.isTame, Bool.and_eq_true]
    exact fun h => ⟨⟨trivial, h.1.2⟩, h.2⟩
  | .inside _ s, raw => by
    simp only [Step.isTame]
    exact Step.isTame_raise s raw
  | .accept, _ | .coerce _ _, _ | .guarded _ _, _ | .check _ _ _ _, _ | .optional _ _, _
  | .union _ _, _ | .fields _ _ _, _ => by
    simp only [Step.isTame]
    exact id

end

theorem Step.isTame_of_guarded {s : Step} (h : s.isTame false = true) (raw : Bool) :
    s.isTame raw = true := by
  cases raw with
  | false => exact h
  | true => exact Step.isTame_raise s false h

namespace Validator

/-- Whether the step of a validator is tame, with all calls guarded. -/
def isTame (v : Validator) : Bool := v.step.isTame false

section
variable {v : Validator}

theorem create_isTame (kind : Kind) {message : Value} (hm : message.isMessage = true) :
    (create kind message).step.isTame false = true := by
  cases kind with
  | any => simp [create, Step.isTame]
  | _ => simpa [create, Step.isTame] using hm

theorem ofFunction_isTame (kind : Kind) {f : Value} (hf : f.isTyped = true) (comparison : Value) :
    (ofFunction kind f.toCallable comparison).isTame = true := by
  simp only [ofFunction, isTame, Step.ofFunction, Step.isTame]
  exact Value.toCallable_isTame hf

theorem andThen_isTame (hv : v.isTame = true) {s : Step} (hs : s.isTame true = true) :
    (v.andThen s).isTame = true := by
  simp only [isTame, andThen, Step.isTame, Bool.and_eq_true] at hv ⊢
  exact ⟨hv, hs⟩

theorem check_isTame (hv : v.isTame = true) {c : Check} (hc : c.isTame = true) {message : Value}
    (hm : message.isMessage = true) (expected : Value) (comparison : String) :
    (v.check c message expected comparison).isTame = true := by
  refine andThen_isTame hv ?_
  simp only [Step.isTame, Bool.and_eq_true]
  exact ⟨hm, hc⟩

theorem test_isTame (hv : v.isTame = true) {c : Check} (hc : c.isTame = true) {message : Value}
    (hm : message.isMessage = true) (wording : String) (expected : Value) :
    (v.test c message wording expected).isTame = true :=
  check_isTame hv hc (Value.isMessage_of_isTemplate (Value.messageOr_isTemplate hm wording))
    expected "test"

theorem optional_isTame (hv : v.isTame = true) {default : Value} (hd : default.isTyped = true) :
    (v.optional default).isTame = true := by
  have hraise := Step.isTame_raise v.step false hv
  have hcall := Value.toCallable_isTame hd
  unfold optional isTame
  simp only [Step.isTame, Bool.and_eq_true]
  refine ⟨hraise, ?_⟩
  split
  · next f hf =>
    rw [Value.toCallable, hf] at hcall
    simpa [Default.isTame] using hcall
  · simp [Default.isTame]
  · simp [Default.isTame]

/-! ## Chains -/

/-- Building of which every result is tame. -/
def OnlyTame (b : Build Validator) : Prop := ∀ u, b.Yields u → u.isTame = true

theorem isIn_isTame (hv : v.isTame = true) {message : Value} (hm : message.isMessage = true)
    (values : Value) : OnlyTame (Build.ofExcept (v.isIn values message)) := by
  refine Build.Only.ofExcept fun u h => ?_
  obtain ⟨found, -, h⟩ := Attempt.bind_eq_ok.1 h
  cases h
  exact check_isTame hv rfl (Value.isMessage_of_isTemplate (Value.messageOr_isTemplate hm _)) _ _

theorem notIn_isTame (hv : v.isTame = true) {message : Value} (hm : message.isMessage = true)
    (values : Value) : OnlyTame (Build.ofExcept (v.notIn values message)) := by
  refine Build.Only.ofExcept fun u h => ?_
  obtain ⟨found, -, h⟩ := Attempt.bind_eq_ok.1 h
  cases h
  exact check_isTame hv rfl (Value.isMessage_of_isTemplate (Value.messageOr_isTemplate hm _)) _ _

theorem listLengthMessage_isMessage {bound : String} {length message found : Value}
    (hm : message.isMessage = true) (h : (listLengthMessage bound length message).Yields found) :
    found.isMessage = true := by
  unfold listLengthMessage at h
  split at h
  · rw [h.pure]
    exact hm
  · obtain ⟨text, -, h⟩ := h.bind
    rw [h.pure]
    rfl

theorem atLeastLong_isTame (hv : v.isTame = true) {message : Value} (hm : message.isMessage = true)
    (length : Value) : OnlyTame (v.atLeastLong length message) := by
  unfold atLeastLong
  split
  · exact Build.Only.bind fun found hfound =>
      Build.Only.pure (check_isTame hv rfl (listLengthMessage_isMessage hm hfound) _ _)
  · exact Build.Only.bind fun _ _ => Build.Only.pure (test_isTame hv rfl hm _ _)

theorem atMostLong_isTame (hv : v.isTame = true) {message : Value} (hm : message.isMessage = true)
    (length : Value) : OnlyTame (v.atMostLong length message) := by
  unfold atMostLong
  split
  · exact Build.Only.bind fun found hfound =>
      Build.Only.pure (check_isTame hv rfl (listLengthMessage_isMessage hm hfound) _ _)
  · exact Build.Only.bind fun _ _ => Build.Only.pure (test_isTame hv rfl hm _ _)

theorem pattern_isTame (hv : v.isTame = true) {message : Value} (hm : message.isMessage = true)
    (source : Value) : OnlyTame (v.pattern source message) := by
  refine Build.Only.bind fun found _ => ?_
  cases found with
  | some p => exact Build.Only.pure (test_isTame hv rfl hm _ _)
  | none => exact Build.Only.pure (test_isTame hv rfl hm _ _)

theorem range_isTame (hv : v.isTame = true) {message : Value} (hm : message.isMessage = true)
    (low high : Value) : OnlyTame (v.range low high message) := by
  refine Build.Only.bind fun reversed _ => ?_
  have hv' :=
    fun wording expected => test_isTame hv (c := .between low high) rfl hm wording expected
  simp only
  split
  · refine Build.Only.bind fun _ _ => Build.Only.bind fun _ _ => Build.Only.bind fun _ _ => ?_
    exact Build.Only.pure (hv' _ _)
  · exact Build.Only.pure (hv' _ _)

theorem multipleOf_isTame (hv : v.isTame = true) {message : Value} (hm : message.isMessage = true)
    (base : Value) : OnlyTame (v.multipleOf base message) := by
  unfold multipleOf
  have hresult : OnlyTame _ := Build.Only.pure (test_isTame hv (c := .multipleOf base) rfl hm
    "Expected value ($\x7bgot\x7d) to be a multiple of $\x7bexpected\x7d" base)
  split
  · exact Build.Only.bind fun _ _ => hresult
  · exact hresult

theorem power_isTame (hv : v.isTame = true) (exponent : Value) : OnlyTame (v.power exponent) := by
  refine Build.Only.bind fun negative _ => ?_
  have hresult : OnlyTame _ := Build.Only.pure (andThen_isTame hv (s := .change (.power exponent))
    (by simp [Step.isTame, Change.isTame]))
  split
  · exact Build.Only.bind fun _ _ => Build.Only.bind fun _ _ => hresult
  · exact hresult

theorem extendPlain_isTame (hv : v.isTame = true) {m : Method} {message : Value}
    (hm : m.parameters.1 = ["message"] → message.isMessage = true) :
    (v.extendPlain m message).isTame = true := by
  unfold extendPlain
  split
  case h_15 => exact hv
  case h_10 | h_11 => exact check_isTame hv rfl (hm rfl) _ _
  all_goals exact test_isTame hv rfl (hm rfl) _ _

theorem extendWith_isTame (hv : v.isTame = true) {m : Method} {x message : Value}
    (hm : m.parameters.1 = ["value", "message"] → message.isMessage = true) :
    OnlyTame (v.extendWith m x message) := by
  unfold extendWith
  split
  case h_1 | h_2 => exact Build.Only.pure (check_isTame hv rfl (hm rfl) _ _)
  case h_3 | h_4 => exact isIn_isTame hv (hm rfl) x
  case h_5 => exact notIn_isTame hv (hm rfl) x
  case h_6 => exact atLeastLong_isTame hv (hm rfl) x
  case h_7 => exact atMostLong_isTame hv (hm rfl) x
  case h_8 => exact Build.Only.bind fun _ _ => Build.Only.pure (test_isTame hv rfl (hm rfl) _ _)
  case h_9 => exact pattern_isTame hv (hm rfl) x
  case h_19 => exact multipleOf_isTame hv (hm rfl) x
  case h_20 => exact power_isTame hv x
  case h_21 => exact Build.Only.bind fun _ _ => Build.Only.pure (test_isTame hv rfl (hm rfl) _ _)
  case h_22 => exact Build.Only.pure hv
  all_goals exact Build.Only.pure (test_isTame hv rfl (hm rfl) _ _)

end

end Validator

/-! ## Schemas -/

namespace Schema

/-- A validator that stands for itself is as tame as it is; all other leaves are guarded. -/
theorem compileLeaf_isTame {raw : Bool} {v : Value} {u : Validator}
    (hn : v.isTameNode raw = true) (h : compileLeaf v = .ok u) : u.step.isTame raw = true := by
  have created : ∀ kind : Kind, (Validator.create kind .null).step.isTame raw = true := fun kind =>
    Step.isTame_of_guarded (Validator.create_isTame kind rfl) raw
  have called : ∀ t : Value, t.isTyped = true →
      (Validator.ofFunction .any t.toCallable (.text "custom")).step.isTame raw = true :=
        fun t ht =>
    Step.isTame_of_guarded (Validator.ofFunction_isTame .any ht _) raw
  unfold compileLeaf at h
  split at h
  · cases h
    exact hn
  · cases h
    exact Step.isTame_of_guarded (Validator.test_isTame (Validator.create_isTame .string rfl) rfl
      rfl _ _) raw
  · split at h
    · cases h
      exact created _
    · cases h
      exact called _ rfl
  · cases h
    exact called _ rfl
  · cases h
  · split at h
    · cases h
      exact created _
    · cases h

variable {mode : Mode} {settings : Settings}

theorem compileElement_isTame {message : Value} {items : List Value} {u : Validator} {raw : Bool}
    (hs : settings.HasTexts) (hm : message.isMessage = true)
    (hitem : ∀ node ∈ items, ∀ element : Validator,
      (compileNode mode settings .null node).Yields element → element.step.isTame true = true)
    (h : (compileElement mode settings message items).Yields u) : u.step.isTame raw = true := by
  have harray : (Validator.create .array .null).isTame = true := Validator.create_isTame .array rfl
  match items with
  | [] =>
    simp only [compileElement] at h
    rw [h.pure]
    exact Step.isTame_of_guarded harray raw
  | [node] =>
    simp only [compileElement] at h
    obtain ⟨element, helement, h⟩ := h.bind
    rw [h.pure]
    refine Step.isTame_of_guarded (Validator.andThen_isTame harray ?_) raw
    simp only [Step.isTame, Bool.and_eq_true]
    have hmessage := Value.orElse_isTemplate hm hs.arrayMessage
    exact ⟨⟨trivial, Value.isMessage_of_isTemplate hmessage⟩,
      hitem node List.mem_cons_self element helement⟩
  | _ :: _ :: _ =>
    simp only [compileElement] at h
    exact h.throw.elim

mutual

/-- What a schema compiles to is tame, if the validators in it are. -/
theorem compileNode_isTame (hs : settings.HasTexts) : ∀ (v : Value) (message : Value) (raw : Bool)
    (u : Validator), v.isTyped = true → v.isTameNode raw = true → message.isMessage = true →
      (compileNode mode settings message v).Yields u → u.step.isTame raw = true
  | .list items, message, raw, u | .tuple items, message, raw, u => by
    intro ht _ hm h
    simp only [compileNode] at h
    simp only [Value.isTyped, Value.everywhere, Bool.true_and, Value.everywhereAll_iff] at ht
    exact compileElement_isTame hs hm (compileItems_isTame hs items ht) h
  | .map entries, message, raw, u => by
    intro ht _ hm h
    simp only [compileNode] at h
    simp only [Value.isTyped, Value.everywhere, Bool.true_and, Value.everywhereEntries_iff] at ht
    obtain ⟨fields, hfields, h⟩ := h.bind
    obtain ⟨_, -, h⟩ := h.bind
    rw [h.pure]
    simp only [Step.isTame, Bool.and_eq_true]
    have hmessage := Value.orElse_isTemplate hm hs.message
    exact ⟨Value.isMessage_of_isTemplate hmessage,
      compileFields_isTame hs entries fields (fun e he => (ht e he).2) hfields⟩
  | .validator kind step id, message, raw, u => by
    intro _ hn _ h
    simp only [compileNode] at h
    exact compileLeaf_isTame hn h.ofExcept
  | .up _, message, raw, u | .missing, message, raw, u | .null, message, raw, u
  | .bool _, message, raw, u | .int _, message, raw, u | .float _, message, raw, u
  | .nan _, message, raw, u | .text _, message, raw, u | .bytes _, message, raw, u
  | .set _, message, raw, u | .moment _, message, raw, u | .date _, message, raw, u
  | .time _, message, raw, u | .pattern _, message, raw, u | .mode _, message, raw, u
  | .type _, message, raw, u | .object _, message, raw, u | .function _, message, raw, u => by
    intro _ hn _ h
    simp only [compileNode] at h
    exact compileLeaf_isTame hn h.ofExcept
termination_by structural v => v

theorem compileItems_isTame (hs : settings.HasTexts) : ∀ (items : List Value),
    (∀ v ∈ items, v.isTyped = true) → ∀ v ∈ items, ∀ u : Validator,
      (compileNode mode settings .null v).Yields u → u.step.isTame true = true
  | [] => by simp
  | v :: rest => by
    intro ht x hx u h
    rcases List.mem_cons.1 hx with hx | hx
    · rw [hx] at h
      have hv := ht v List.mem_cons_self
      exact compileNode_isTame hs v .null true u hv (Value.isTameNode_of_isTyped hv) rfl h
    · exact compileItems_isTame hs rest (fun v hv => ht v (List.mem_cons_of_mem _ hv)) x hx u h
termination_by structural items => items

theorem compileFields_isTame (hs : settings.HasTexts) : ∀ (entries : List (Value × Value))
    (fields : List (Value × Step)), (∀ e ∈ entries, e.2.isTyped = true) →
      (compileFields mode settings entries).Yields fields → Step.fieldsAreTame fields = true
  | [], fields => by
    intro _ h
    simp only [compileFields] at h
    rw [h.pure]
    rfl
  | (key, node) :: rest, fields => by
    intro ht h
    simp only [compileFields] at h
    obtain ⟨name, -, h⟩ := h.bind
    obtain ⟨member, hmember, h⟩ := h.bind
    obtain ⟨more, hmore, h⟩ := h.bind
    rw [h.pure]
    simp only [Step.fieldsAreTame, Bool.and_eq_true]
    have hnode := ht _ List.mem_cons_self
    exact ⟨compileNode_isTame hs node _ true member hnode (Value.isTameNode_of_isTyped hnode) rfl
        hmember,
      compileFields_isTame hs rest more (fun e he => ht e (List.mem_cons_of_mem _ he)) hmore⟩
termination_by structural entries => entries

end

theorem compile_isTame {schema modeName path message : Value} {u : Validator} {raw : Bool}
    (ht : schema.isTyped = true) (hn : schema.isTameNode raw = true) (hs : settings.HasTexts)
    (hm : message.isMessage = true)
    (h : (compile schema modeName path message settings).Yields u) : u.step.isTame raw = true := by
  have rest : ∀ mode : Mode, (do
      let segments ← Build.ofFault path.iterate
      return under segments (← compileNode mode settings message schema) :
        Build Validator).Yields u →
        u.step.isTame raw = true := by
    intro mode h
    obtain ⟨segments, -, h⟩ := h.bind
    obtain ⟨node, hnode, h⟩ := h.bind
    have htame := compileNode_isTame hs schema message raw node ht hn hm hnode
    rw [h.pure]
    unfold under
    split
    · exact htame
    · simpa only [Step.isTame] using htame
  unfold compile at h
  simp only at h
  split at h
  · obtain ⟨mode, -, h⟩ := h.bind
    exact rest mode h
  · obtain ⟨mode, -, h⟩ := h.bind
    exact rest mode h

/-! ### Records of validators -/

/-- Validators compile to their own steps, under any keys that can be written. -/
theorem compileFields_makes (mode : Mode) (settings : Settings) :
    ∀ {fields : List (Value × Validator)},
    (∀ field ∈ fields, field.1.isWritable = true) →
    (compileFields mode settings (fields.map fun field => (field.1, .ofValidator field.2))).Makes
      (fields.map fun field => (field.1, field.2.step))
  | [], _ => .pure _
  | (key, v) :: rest, h => by
    obtain ⟨text, htext⟩ := Build.Makes.plain (h (key, v) List.mem_cons_self)
    have hnode :
      (compileNode mode settings (.text (memberMessage text)) (.ofValidator v)).Makes v :=
      .ofExcept rfl
    have hrest := compileFields_makes mode settings fun field hfield =>
      h field (List.mem_cons_of_mem _ hfield)
    rw [List.map_cons, compileFields]
    exact htext.bind (hnode.bind (hrest.bind (.pure _)))

/-- A map compiles to a record if its fields compile. -/
theorem compileNode_map {mode : Mode} {settings : Settings} {message : Value}
    {entries : List (Value × Value)} {fields : List (Value × Step)}
    (h : (compileFields mode settings entries).Makes fields) :
    (compileNode mode settings message (.map entries)).Makes
      ⟨.object, .fields mode (message.orElse settings.message) fields⟩ := by
  rw [compileNode]
  exact h.bind ((Build.Makes.log _ _).bind (.pure _))

end Schema

/-! ## Methods -/

namespace Method

/-- Whether a text, or nothing, is given as the message wherever a method takes one. -/
def takesTexts (m : Method) (args : List Value) (message : Option Value) : Bool :=
  match bind m.parameters.1 m.parameters.2 args message with
  | .ok bound => (m.parameters.1.zip bound).all fun (name, x) =>
    name != "message" || (x.getD .null).isMessage
  | .error _ => .true

/-- What parameters are bound to was given. -/
theorem mem_of_bind {parameters : List String} {needed : Nat} {args : List Value}
    {message : Option Value} {bound : List (Option Value)} {x : Value}
    (h : bind parameters needed args message = .ok bound) (hx : some x ∈ bound) :
    x ∈ args ++ message.toList := by
  have positional : some x ∈ parameters.zipIdx.map (fun p => args[p.2]?) → x ∈ args := by
    intro hmem
    obtain ⟨⟨name, i⟩, -, hi⟩ := List.mem_map.1 hmem
    exact List.mem_of_getElem? hi
  unfold bind at h
  simp only at h
  split at h
  · cases h
  · split at h
    · cases h
    · next found hfound =>
      split at h
      · cases h
        split at hfound
        · cases hfound
          exact List.mem_append_left _ (positional hx)
        · next m =>
          split at hfound
          · cases hfound
          · split at hfound
            · cases hfound
            · cases hfound
              rcases List.mem_or_eq_of_mem_set hx with hx | hx
              · exact List.mem_append_left _ (positional hx)
              · cases hx
                exact List.mem_append_right _ (by simp)
      · cases h

end Method

namespace Validator

variable {v : Validator}

theorem elementsOf_isTame (hv : v.isTame = true) {schema message mode : Value}
    (ht : schema.isTyped = true) (hm : message.isMessage = true) :
    OnlyTame (v.elementsOf schema message mode) := by
  refine Build.Only.bind fun element helement => Build.Only.pure (andThen_isTame hv ?_)
  have htame := Schema.compile_isTame ht (Value.isTameNode_of_isTyped ht) ⟨rfl, rfl⟩ rfl helement
  have hmessage : (message.orElse Settings.default.arrayMessage).isTemplate = true :=
    Value.orElse_isTemplate hm rfl
  simp only [Step.isTame, Bool.and_eq_true]
  exact ⟨⟨trivial, Value.isMessage_of_isTemplate hmessage⟩, htame⟩

theorem schema_isTame (hv : v.isTame = true) {schema message mode : Value}
    (ht : schema.isTyped = true) (hm : message.isMessage = true) :
    OnlyTame (v.schema schema mode message) := by
  unfold Validator.schema
  split
  · refine Build.Only.bind fun record hrecord => Build.Only.pure (andThen_isTame hv ?_)
    exact Schema.compile_isTame ht (Value.isTameNode_of_isTyped ht) ⟨rfl, rfl⟩ hm hrecord
  · exact Build.Only.throw _

/-- One more link in a chain keeps a validator tame. -/
theorem extend_isTame (hv : v.isTame = true) {m : Method} {args : List Value}
    {message : Option Value} (ht : ∀ x ∈ args ++ message.toList, x.isTyped = true)
    (hm : m.takesTexts args message = true) : OnlyTame (v.extend m args message) := by
  unfold extend
  simp only
  split
  · exact Build.Only.bind fun _ h => h.throw.elim
  · refine Build.Only.bind fun bound hbound => ?_
    have hbound := hbound.ofExcept
    have typed : ∀ x, some x ∈ bound → x.isTyped = true := fun x hx =>
      ht x (Method.mem_of_bind hbound hx)
    rw [Method.takesTexts, hbound] at hm
    simp only at hm
    split
    case h_1 | h_2 | h_3 =>
      exact Build.Only.pure (andThen_isTame hv (by simp [Step.isTame, Change.isTame]))
    case h_4 f cls _ _ =>
      refine Build.Only.bind fun kind _ => Build.Only.pure ?_
      have hf := Value.toCallable_isTame (typed f List.mem_cons_self)
      have happly := andThen_isTame hv (s := .change (.apply f.toCallable))
        (by simpa only [Step.isTame, Change.isTame] using hf)
      exact happly
    case h_5 f message expected _ _ =>
      have hf := Value.toCallable_isTame (typed f List.mem_cons_self)
      refine Build.Only.pure (check_isTame hv ?_ ?_ _ _)
      · simpa only [Check.isTame] using hf
      · simpa [Method.parameters] using hm
    case h_6 default _ _ =>
      refine Build.Only.pure (optional_isTame hv ?_)
      cases default with
      | none => rfl
      | some d => exact typed d List.mem_cons_self
    case h_7 low high message _ _ =>
      exact range_isTame hv (by simpa [Method.parameters] using hm) low high
    case h_8 schema message mode _ _ =>
      exact elementsOf_isTame hv (typed schema List.mem_cons_self)
        (by simpa [Method.parameters] using hm)
    case h_9 schema mode message _ _ =>
      exact schema_isTame hv (typed schema List.mem_cons_self)
        (by simpa [Method.parameters] using hm)
    case h_10 =>
      refine extendWith_isTame hv fun hp => ?_
      simpa [hp] using hm
    case h_11 => exact extendWith_isTame hv nofun
    case h_12 =>
      refine Build.Only.pure (extendPlain_isTame hv fun hp => ?_)
      simpa [hp] using hm
    case h_13 => exact Build.Only.pure hv

theorem iterate_isTyped {v : Value} {items : List Value} (hv : v.isTyped = true)
    (h : v.iterate = .ok items) : ∀ item ∈ items, item.isTyped = true :=
  Value.iterate_everywhere hv rfl (fun _ => rfl) (fun _ => rfl) (fun _ => rfl) h

theorem ofValue_isTame {v : Value} (hv : v.isTyped = true) :
    (ofValue v).step.isTame true = true := by
  unfold ofValue
  split
  · exact hv
  · exact Step.isTame_of_guarded (ofFunction_isTame .any hv _) true

theorem union_isTame {alternatives message : Value} (ht : alternatives.isTyped = true)
    (hm : message.isMessage = true) : OnlyTame (union alternatives message) := by
  have areTame : ∀ items : List Value, (∀ item ∈ items, item.isTyped = true) →
      Step.areTame (items.map fun v => (ofValue v).step) = true := by
    intro items
    induction items with
    | nil => simp [Step.areTame]
    | cons item rest ih =>
      intro h
      simp only [List.map_cons, Step.areTame, Bool.and_eq_true]
      exact ⟨ofValue_isTame (h item List.mem_cons_self),
        ih fun x hx => h x (List.mem_cons_of_mem _ hx)⟩
  unfold union
  simp only
  split
  · exact Build.Only.bind fun _ h => h.throw.elim
  · refine Build.Only.bind fun items hitems => Build.Only.pure ?_
    simp only [isTame, Step.isTame, Bool.and_eq_true]
    exact ⟨hm, areTame items (iterate_isTyped ht hitems.ofFault)⟩

/-! ## What is built -/

/-- How validators are built, with texts as messages and from anything but a step taken as it is.
Only where it is called under a guard may a validator that was not built so be used. -/
inductive Built : Validator → Prop
  /-- Of a kind. -/
  | create (kind : Kind) {message : Value} : message.isMessage = true → Built (create kind message)
  /-- From a function, or anything else that is called. -/
  | ofFunction (kind : Kind) {f : Value} (comparison : Value) : f.isTyped = true →
      Built (ofFunction kind f.toCallable comparison)
  /-- As a choice. -/
  | union {alternatives message : Value} {v : Validator} : alternatives.isTyped = true →
      message.isMessage = true → (union alternatives message).Yields v → Built v
  /-- From a schema. -/
  | compile {schema mode path message : Value} {settings : Settings} {v : Validator} :
      schema.isTyped = true → schema.isTameNode false = true → settings.HasTexts →
      message.isMessage = true → (Schema.compile schema mode path message settings).Yields v →
      Built v
  /-- By one more link in a chain. -/
  | extend {v u : Validator} {m : Method} {args : List Value} {message : Option Value} : Built v →
      (∀ x ∈ args ++ message.toList, x.isTyped = true) → m.takesTexts args message = true →
      (v.extend m args message).Yields u → Built u

theorem Built.isTame (h : v.Built) : v.isTame = true := by
  induction h with
  | create kind hm => exact create_isTame kind hm
  | ofFunction kind comparison hf => exact ofFunction_isTame kind hf comparison
  | union ht hm h => exact union_isTame ht hm _ h
  | compile ht hn hs hm h => exact Schema.compile_isTame ht hn hs hm h
  | extend _ ht hm h ih => exact extend_isTame ih ht hm _ h

/-! ## Calls of what is built -/

theorem contained_outcome {w : World} (hw : w.NeverCancels) (hv : v.Built) {args : List Value}
    (hrun : v.staysWritable w args = true)
    (hreadable : Kind.isReadable v.step.bareKind? (firstArgument args) = true) :
    Contained false (v.call w args).outcome := by
  simp only [staysWritable, Bool.and_eq_true] at hrun
  rw [← firstArgument_called args] at hreadable
  exact Step.contained hw v.step false _ hv.isTame (called_isWritable hrun.1)
    hrun.2 (.inr hreadable)

theorem answer_of_contained {c : Call Value} (h : Contained false c.outcome) :
    (∃ a, c.answer = .returned a) ∨ (∃ f, c.answer = .raised (.failure f)) ∨
      ∃ handles p, c.answer = .promised handles p ∧
        ((∃ a, p.outcome = .ok a) ∨ ∃ f, p.outcome = .error (.failure f)) := by
  have houtcome := h.ok_or_failure
  unfold Call.outcome at houtcome
  cases ha : c.answer with
  | returned a => exact .inl ⟨a, rfl⟩
  | raised r =>
    rw [ha] at houtcome
    rcases houtcome with ⟨a, h⟩ | ⟨f, h⟩
    · cases h
    · cases h
      exact .inr (.inl ⟨f, rfl⟩)
  | promised handles p =>
    rw [ha] at houtcome
    exact .inr (.inr ⟨handles, p, rfl, houtcome⟩)

theorem callSafely_of_contained {w : World} {args : List Value}
    (h : Contained false (v.call w args).outcome) (himm : (v.call w args).isPromised = false) :
    ∃ verdict, (v.callSafely w args).answer = .returned verdict := by
  unfold callSafely
  simp only
  rcases answer_of_contained h with ⟨a, ha⟩ | ⟨f, ha⟩ | ⟨handles, p, ha, -⟩
  · rw [ha]
    exact ⟨_, rfl⟩
  · rw [ha]
    exact ⟨_, rfl⟩
  · simp [Call.isPromised, ha] at himm

theorem callSafelyLater_of_contained {w : World} {args : List Value}
    (h : Contained false (v.call w args).outcome) :
    ∃ verdict, (v.callSafelyLater w args).settle.2 = .ok verdict := by
  have houtcome : (v.call w args).awaited.outcome = (v.call w args).outcome := by
    refine Call.awaited_outcome fun r hr => ?_
    rcases h.ok_or_failure with ⟨a, ha⟩ | ⟨f, ha⟩
    · cases ha.symm.trans hr
    · cases ha.symm.trans hr
      exact Raised.failure_isSteady f
  rw [Call.settle_snd]
  unfold callSafelyLater
  simp only [Call.outcome, houtcome]
  rcases h.ok_or_failure with ⟨a, ha⟩ | ⟨f, ha⟩
  · exact ⟨_, by rw [← Call.outcome, ha]⟩
  · exact ⟨_, by rw [← Call.outcome, ha]⟩

/-- The call of what is built, on a writable run, answers a value, raises a failure, or promises one
of the two. Judging without raising failures therefore never raises anything: at once, if nothing is
promised, and later in any case. Only what begins with reading a date raises something else, for a
number of a type of its own. -/
theorem call_contained {w : World} (hw : w.NeverCancels) (hv : v.Built) {args : List Value}
    (hrun : v.staysWritable w args = true) :
    (Kind.isReadable v.step.bareKind? (firstArgument args) = true →
      ((∃ a, (v.call w args).answer = .returned a) ∨
        (∃ f, (v.call w args).answer = .raised (.failure f)) ∨
        ∃ handles p, (v.call w args).answer = .promised handles p ∧
          ((∃ a, p.outcome = .ok a) ∨ ∃ f, p.outcome = .error (.failure f))) ∧
      ((v.call w args).isPromised = false →
        ∃ verdict, (v.callSafely w args).answer = .returned verdict) ∧
      ∃ verdict, (v.callSafelyLater w args).settle.2 = .ok verdict) ∧
    (Kind.isReadable v.step.bareKind? (firstArgument args) = false →
      ∃ type, (v.call w args).answer = .raised (.fault (.notWhole type))) := by
  refine ⟨fun hreadable => ?_, fun hunreadable => ?_⟩
  · have hcontained := contained_outcome hw hv hrun hreadable
    refine ⟨answer_of_contained hcontained, fun himm => ?_, ?_⟩
    · exact callSafely_of_contained hcontained himm
    · exact callSafelyLater_of_contained hcontained
  · rw [← firstArgument_called args] at hunreadable
    exact v.step.unreadable hunreadable

/-- A list that holds itself, given to a function that refuses it one pause later. -/
theorem call_contained_cyclic :
    let w := World.ofRoutines [⟨.raise (.fault (.raised "ValueError" "odd")), none, some 1⟩]
      (.ofDate ⟨2024, 1, 1⟩)
    let v : Validator :=
      ⟨.array, .andThen (.coerce .array .null) (.change (.apply (.function ⟨0⟩)))⟩
    let args := [Value.list [.up 0]]
    w.NeverCancels ∧ v.Built ∧ v.staysWritable w args = true ∧ (v.call w args).isPromised = true ∧
      ∃ verdict, (v.callSafelyLater w args).settle.2 = .ok verdict := by
  intro w v args
  have hw : w.NeverCancels := World.ofRoutines_neverCancels (by simp)
  have hbuilt : ((create .array .null).extend .transform [.function ⟨0⟩] none).Yields v := ⟨[], rfl⟩
  have hv : v.Built :=
    .extend (.create .array rfl) (by simp [Value.isTyped, Value.everywhere]) rfl hbuilt
  have hrun : v.staysWritable w args = true := by decide +kernel
  exact ⟨hw, hv, hrun, by decide +kernel, ((call_contained hw hv hrun).1 rfl).2.2⟩

/-- Trouble of another kind than a failure: a fraction that is read as a date, and what is said of a
list of a pattern in bytes that is no text. -/
theorem not_contained :
    let w := World.ofRoutines [] (.ofDate ⟨2024, 1, 1⟩)
    let fraction := Value.object ⟨⟨0⟩, .real ⟨"Fraction", by decide⟩ "Fraction(1, 2)" "1/2"⟩
    let bytes := Value.list [.pattern ⟨.bytes [120], .default, .empty, 0⟩]
    let escapes := fun (v : Validator) (x : Value) =>
      w.NeverCancels ∧ v.Built ∧ ∃ e, (v.call w [x]).answer = .raised (.fault e)
    escapes (create .date .null) fraction ∧ escapes (create .string .null) bytes := by
  intro w fraction bytes escapes
  have hw : w.NeverCancels := World.ofRoutines_neverCancels (by simp)
  have hbytes : ((create .string .null).call w [bytes]).answer =
    .raised (wrongKind .string .null bytes) := rfl
  have hfault : Call.fault? (.error (wrongKind .string .null bytes) : Except Raised Value) =
      some (.notTextItem 0) := by
    decide +kernel
  refine ⟨⟨hw, .create .date rfl, _, rfl⟩, hw, .create .string rfl, .notTextItem 0, ?_⟩
  rw [hbytes, Except.error.inj (Call.fault?_eq_some.1 hfault)]

end Validator

end Attest
