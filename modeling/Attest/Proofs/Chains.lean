import Attest.Blueprint
import Attest.Proofs.Positions

/-!
# Chains

Whatever checks are added to a validator, the result does first what the validator does, and only
then what it has to do besides, or does nothing where the value is missing. So what the validator
judges of a value that is present, the result judges too.

* `Step.Extends`: a step that begins with another one.
* `Validator.IsLink`: a validator with one more link in its chain.
* `Blueprint.applyCheck_links`: each check adds one link at most.
* `Blueprint.finish_lengthens`: the validator of a field, with its checks and its default.
-/

namespace Attest

/-! ## Steps that begin with others -/

namespace Step

/-- A step that begins with another one, unless the value is missing. -/
inductive Extends (first : Step) : Step → Prop
  | same : Extends first first
  | andThen {s : Step} (next : Step) : Extends first s → Extends first (.andThen s next)
  | optional {s : Step} (default : Default) : Extends first s → Extends first (.optional s default)

theorem Extends.trans {s t u : Step} (h : Extends s t) (h' : Extends t u) : Extends s u := by
  induction h' with
  | same => exact h
  | andThen next _ ih => exact .andThen next ih
  | optional default _ ih => exact .optional default ih

/-- What is judged first is judged. -/
theorem Judges.extends {w : World} {part first s : Step} {item v : Value} {trail : Trail}
    (h : Judges w part item first v trail) (hs : Extends first s) (hv : v.isNullish = false) :
    Judges w part item s v trail := by
  induction hs with
  | same => exact h
  | andThen next _ ih => exact .first ih
  | optional default _ ih => exact .present hv ih

end Step

/-! ## Methods -/

namespace Validator

variable {v : Validator}

/-- A validator itself, or with one more step. -/
def IsLink (v u : Validator) : Prop := u = v ∨ ∃ s, u = v.andThen s

theorem IsLink.extends {u : Validator} (h : v.IsLink u) : Step.Extends v.step u.step := by
  rcases h with rfl | ⟨s, rfl⟩
  · exact .same
  · exact .andThen s .same

theorem IsLink.kind_eq {u : Validator} (h : v.IsLink u) : u.kind = v.kind := by
  rcases h with rfl | ⟨_, rfl⟩ <;> rfl

/-- Building of which every result is a validator with one more step at most. -/
abbrev Links (v : Validator) (b : Build Validator) : Prop := b.Only v.IsLink

theorem links_return (v : Validator) : v.Links (return v) := .pure (.inl rfl)

theorem links_andThen (v : Validator) (s : Step) :
    v.Links (return v.andThen s) := .pure (.inr ⟨s, rfl⟩)

theorem isIn_links (values message : Value) : v.Links (Build.ofExcept (v.isIn values message)) :=
  .ofExcept fun u h => by
    obtain ⟨found, -, h⟩ := Attempt.bind_eq_ok.1 h
    cases h
    exact .inr ⟨_, rfl⟩

theorem notIn_links (values message : Value) : v.Links (Build.ofExcept (v.notIn values message)) :=
  .ofExcept fun u h => by
    obtain ⟨found, -, h⟩ := Attempt.bind_eq_ok.1 h
    cases h
    exact .inr ⟨_, rfl⟩

theorem atLeastLong_links (length message : Value) : v.Links (v.atLeastLong length message) := by
  unfold atLeastLong
  split
  · exact .bind fun _ _ => v.links_andThen _
  · exact .bind fun _ _ => v.links_andThen _

theorem atMostLong_links (length message : Value) : v.Links (v.atMostLong length message) := by
  unfold atMostLong
  split
  · exact .bind fun _ _ => v.links_andThen _
  · exact .bind fun _ _ => v.links_andThen _

theorem pattern_links (source message : Value) : v.Links (v.pattern source message) :=
  .bind fun found _ => by
    cases found with
    | some p => exact v.links_andThen _
    | none => exact v.links_andThen _

theorem range_links (low high message : Value) : v.Links (v.range low high message) := by
  refine .bind fun reversed _ => ?_
  simp only
  split
  · exact .bind fun _ _ => .bind fun _ _ => .bind fun _ _ => v.links_andThen _
  · exact v.links_andThen _

theorem multipleOf_links (base message : Value) : v.Links (v.multipleOf base message) := by
  unfold multipleOf
  split
  · exact .bind fun _ _ => v.links_andThen _
  · exact v.links_andThen _

theorem power_links (exponent : Value) : v.Links (v.power exponent) := by
  refine .bind fun negative _ => ?_
  split
  · exact .bind fun _ _ => .bind fun _ _ => v.links_andThen _
  · exact v.links_andThen _

theorem extendWith_links (m : Method) (x message : Value) : v.Links (v.extendWith m x message) := by
  unfold extendWith
  split
  case h_3 | h_4 => exact isIn_links x message
  case h_5 => exact notIn_links x message
  case h_6 => exact atLeastLong_links x message
  case h_7 => exact atMostLong_links x message
  case h_8 => exact .bind fun _ _ => v.links_andThen _
  case h_9 => exact pattern_links x message
  case h_19 => exact multipleOf_links x message
  case h_20 => exact power_links x
  case h_21 => exact .bind fun _ _ => v.links_andThen _
  case h_22 => exact v.links_return
  all_goals exact v.links_andThen _

/-- Building of which every result begins with what a validator does. -/
abbrev Lengthens (v : Validator) (b : Build Validator) :
    Prop := b.Only fun u => Step.Extends v.step u.step

/-! ### Calling by name -/

/-- A method of one argument and a message takes them as they are given. -/
theorem extend_one {m : Method} (hkind : m.isOf v.kind = true)
    (hm : m.parameters = (["value", "message"], 1)) (x message : Value) :
    v.extend m [x] (some message) = v.extendWith m x message := by
  unfold extend
  simp only [hkind, Bool.not_true, Bool.false_eq_true, ↓reduceIte]
  cases m <;> first | exact absurd hm (by decide) | rfl

theorem extend_range (hkind : Method.range.isOf v.kind = true) (low high message : Value) :
    v.extend .range [low, high] (some message) = v.range low high message := by
  unfold extend
  simp only [hkind, Bool.not_true, Bool.false_eq_true, ↓reduceIte]
  rfl

end Validator

/-! ## Fields of blueprints -/

namespace Blueprint

/-- The methods of checks have one argument, but for the one with two bounds. -/
theorem checkTypes_cases {type : String} {m : Method} {keys : List String}
    (h : checkTypes.lookup type = some (m, keys)) :
    m = .range ∧ keys = ["min", "max"] ∨ ∃ key, keys = [key] ∧
      m.parameters = (["value", "message"], 1) ∧
      m ∈ [.min, .max, .length, .minLength, .maxLength, .pattern, .isIn, .notIn,
        .equals, .notEquals] := by
  obtain ⟨_, _, htable, -⟩ := List.lookup_eq_some_iff.1 h
  have hmem : (type, m, keys) ∈ checkTypes := htable ▸ List.mem_append_right _ List.mem_cons_self
  simp only [checkTypes, List.mem_cons, Prod.mk.injEq, List.not_mem_nil, or_false] at hmem
  rcases hmem with ⟨-, rfl, rfl⟩ | ⟨-, rfl, rfl⟩ | ⟨-, rfl, rfl⟩ | ⟨-, rfl, rfl⟩ | ⟨-, rfl, rfl⟩ |
    ⟨-, rfl, rfl⟩ |
    ⟨-, rfl, rfl⟩ | ⟨-, rfl, rfl⟩ | ⟨-, rfl, rfl⟩ | ⟨-, rfl, rfl⟩ | ⟨-, rfl, rfl⟩
  case inr.inr.inl => exact .inl ⟨rfl, rfl⟩
  all_goals exact .inr ⟨_, rfl, rfl, by decide⟩

/-- The method of a check adds one step at most. -/
theorem checkType_links {type : String} {m : Method} {keys : List String}
    (h : checkTypes.lookup type = some (m, keys)) {v : Validator} (hkind : m.isOf v.kind = true)
    (given : String → Value) (message : Value) :
    v.Links (v.extend m (keys.map given) (some message)) := by
  rcases checkTypes_cases h with ⟨rfl, rfl⟩ | ⟨key, rfl, hm, -⟩
  · simp only [List.map_cons, List.map_nil, Validator.extend_range hkind]
    exact Validator.range_links _ _ _
  · simp only [List.map_cons, List.map_nil, Validator.extend_one hkind hm]
    exact Validator.extendWith_links _ _ _

theorem applyCheck_links (name : Value) (v : Validator) (u : Value) :
    v.Links (applyCheck name v u) := by
  unfold applyCheck
  refine .bind fun config _ => .bind fun type _ => ?_
  split
  · exact .throw _
  · next hlookup =>
    simp only
    split
    · exact .bind fun _ h => h.throw.elim
    · next hkind =>
      split
      · exact .bind fun _ _ => .bind fun _ h => h.throw.elim
      · exact checkType_links hlookup (by simpa using hkind) _ _

theorem applyChecks_lengthens (name : Value) (checks : List Value) (v : Validator) :
    v.Lengthens (checks.foldlM (applyCheck name) v) := by
  induction checks generalizing v with
  | nil => exact .pure .same
  | cons check rest ih =>
    rw [List.foldlM_cons]
    exact .bind fun u hu v' hv' => (applyCheck_links name v check u hu).extends.trans (ih u v' hv')

/-- The validator of a field begins with the one that it is finished from. -/
theorem finish_lengthens (config : List (Value × Value)) (name : Value) (v : Validator) :
    v.Lengthens (finish config name v) := by
  refine .bind fun checks _ => .bind fun u hu => ?_
  have hchecks := applyChecks_lengthens name checks v u hu
  split
  · exact .pure hchecks
  · exact .pure (.optional _ hchecks)

end Blueprint

end Attest
