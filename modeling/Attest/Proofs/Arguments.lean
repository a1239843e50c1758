import Attest.Proofs.Built

/-!
# Arguments

What the methods raise that blueprints call. A bad argument is a schema mistake where a method looks
for it. But a length is compared with zero before anything is known about it, bounds are compared
with each other, the source of a pattern is compiled and values are told apart, and what goes wrong
there is raised as it is.

* `Build.RaisesOnly`: whatever building raises has a property.
* `Validator.Objects`: the faults that the arguments of a method raise by themselves.
* `Validator.extendWith_raises`, `range_raises`: a method raises schema mistakes, and the faults of
  its arguments.
-/

namespace Attest

namespace Build

variable {α β : Type} {P : Raised → Prop} {b : Build α}

/-- Whatever building raises, from whatever log, has a property. -/
def RaisesOnly (P : Raised → Prop) (b : Build α) : Prop := ∀ lines r, (b lines).1 = .error r → P r

namespace RaisesOnly

theorem pure (a : α) : RaisesOnly P (Pure.pure a : Build α) := by
  intro _ _ h
  cases h

theorem throw {r : Raised} (h : P r) : RaisesOnly P (MonadExcept.throw r : Build α) := by
  intro _ _ hr
  cases hr
  exact h

theorem log (level : LogLevel) (text : String) : RaisesOnly P (Build.log level text) := by
  intro _ _ h
  cases h

theorem ofExcept {x : Except Raised α} (h : ∀ r, x = .error r → P r) :
    RaisesOnly P (Build.ofExcept x) :=
  fun _ => h

theorem ofFault {x : Except Fault α} (h : ∀ f, x = .error f → P (.fault f)) :
    RaisesOnly P (Build.ofFault x) := by
  intro _ _ hr
  cases x with
  | ok a => cases hr
  | error f =>
    cases hr
    exact h f rfl

theorem bind {f : α → Build β} (hb : RaisesOnly P b) (hf : ∀ a, b.Yields a → RaisesOnly P (f a)) :
    RaisesOnly P (b >>= f) := by
  intro lines r h
  rcases hrun : b lines with ⟨x, lines'⟩
  rw [bind_run f hrun] at h
  cases x with
  | ok a => exact hf a ⟨lines, by rw [hrun]⟩ lines' r h
  | error _ =>
    cases h
    exact hb lines r (by rw [hrun])

theorem of_makes {a : α} (h : b.Makes a) : RaisesOnly P b := by
  intro lines r hr
  rw [h lines] at hr
  cases hr

/-- What comes next is about the one result that there is. -/
theorem after_makes {f : α → Build β} {a : α} (hb : b.Makes a) (hf : RaisesOnly P (f a)) :
    RaisesOnly P (b >>= f) := by
  refine .bind (.of_makes hb) fun a' ⟨lines, ha'⟩ => ?_
  rwa [Except.ok.inj (ha'.symm.trans (hb lines))]

/-- Writing a value fails only over its digits. -/
theorem plain {v : Value} (h : v.isShort = false → P (.fault .tooManyDigits)) :
    RaisesOnly P (Build.plain v) := by
  refine ofFault fun f hf => ?_
  obtain ⟨rfl, hv⟩ := Value.plain_error hf
  exact h hv

theorem schemaError (h : ∀ e : SetupError, e.kind = .schema → P (.setup e)) (message : String)
    (context : List (String × Value)) :
    RaisesOnly P (Build.schemaError message context : Build α) :=
  throw (h _ rfl)

end RaisesOnly

end Build

/-- Only what is no number has no order with zero. -/
theorem Value.relate_zero_error {x : Value} {r : Relation} {f : Fault}
    (h : x.relate r (.int 0) = .error f) :
    x.asNumber? = none ∧ f = x.noOrder r (.int 0) := by
  have hatoms : x.relate r (.int 0) = relateAtoms r x (.int 0) := by
    unfold relate pairDepth relateWithin
    cases x <;> rfl
  rw [hatoms] at h
  cases x <;> cases h <;> exact ⟨rfl, rfl⟩

namespace Validator

open Build (RaisesOnly)

/-- The faults that the arguments of a method raise by themselves, by the kind of the validator: the
length of a text that is no number, or that is refused and has no text itself; the length of a list
that has no text; bounds without an order, or that are refused and have no text; the source of no
pattern; values that cannot be told apart. -/
inductive Objects (kind : Kind) : Method → List Value → Fault → Prop
  | order {m : Method} {x : Value} :
      kind ≠ .array → m ∈ [.minLength, .maxLength, .length] → x.asNumber? = none →
      Objects kind m [x] (x.noOrder .less (.int 0))
  | negative {m : Method} {x : Value} : kind ≠ .array → m ∈ [.minLength, .maxLength, .length] →
      x.relate .less (.int 0) = .ok true → x.isShort = false → Objects kind m [x] .tooManyDigits
  | listLength {m : Method} {x : Value} :
      kind = .array → m ∈ [.minLength, .maxLength] → x.isShort = false →
      Objects kind m [x] .tooManyDigits
  | bounds {low high : Value} {f : Fault} :
      low.relate .greater high = .error f → Objects kind .range [low, high] f
  | reversed {low high x : Value} :
      low.relate .greater high = .ok true → x ∈ [low, high] → x.isShort = false →
      Objects kind .range [low, high] .tooManyDigits
  | pattern {source : Value} {text : String} {f : Fault} : source.asText? = some text →
      Pattern.compile text false = .error f → Objects kind .pattern [source] f
  | values {m : Method} {values : Value} {items : List Value} {f : Fault} : m ∈ [.isIn, .notIn] →
      values.iterate = .ok items → values.distinct items = .error f → Objects kind m [values] f

section
variable {P : Raised → Prop} {v : Validator} {m : Method}

theorem toPattern_raises {source : Value}
    (hobjects : ∀ f, Objects v.kind .pattern [source] f → P (.fault f)) :
    RaisesOnly P (toPattern source) := by
  unfold toPattern
  split
  · exact .pure _
  · split
    · exact .pure _
    · next text htext =>
        exact .bind (.ofFault fun f hf => hobjects f (.pattern htext hf)) fun _ _ => .pure _

theorem listLengthMessage_raises {x : Value} (hkind : v.kind = .array)
    (hm : m ∈ [.minLength, .maxLength]) (hobjects : ∀ f, Objects v.kind m [x] f → P (.fault f))
    (bound : String) (message : Value) :
    RaisesOnly P (listLengthMessage bound x message) := by
  unfold listLengthMessage
  split
  · exact .pure _
  · exact .bind (.plain fun hlong => hobjects _ (.listLength hkind hm hlong)) fun _ _ => .pure _

variable (hschema : ∀ e : SetupError, e.kind = .schema → P (.setup e))

include hschema

theorem refuseNegative_raises {x : Value} (hkind : v.kind ≠ .array)
    (hm : m ∈ [.minLength, .maxLength, .length])
    (hobjects : ∀ f, Objects v.kind m [x] f → P (.fault f)) (what : String) :
    RaisesOnly P (refuseNegative what x) := by
  refine .bind (.ofFault fun f hf => ?_) fun negative hnegative => ?_
  · obtain ⟨hnone, rfl⟩ := Value.relate_zero_error hf
    exact hobjects _ (.order hkind hm hnone)
  · split
    · next htrue =>
      subst htrue
      refine .bind (.plain fun hlong => ?_) fun _ _ => .schemaError hschema _ _
      exact hobjects _ (.negative hkind hm hnegative.ofFault hlong)
    · exact .pure _

/-- A length is looked at in one way for texts, and in another one for lists. -/
theorem atLeastLong_raises {x : Value}
    (hobjects : ∀ f, Objects v.kind .minLength [x] f → P (.fault f)) (message : Value) :
    RaisesOnly P (v.atLeastLong x message) := by
  unfold atLeastLong
  split
  · next hkind =>
    exact .bind (listLengthMessage_raises (beq_iff_eq.1 hkind) (by decide) hobjects _ _) fun _ _ =>
      .pure _
  · next hkind =>
    have hkind : v.kind ≠ .array := fun h => hkind (beq_iff_eq.2 h)
    exact .bind (refuseNegative_raises hschema hkind (by decide) hobjects _) fun _ _ => .pure _

theorem atMostLong_raises {x : Value}
    (hobjects : ∀ f, Objects v.kind .maxLength [x] f → P (.fault f)) (message : Value) :
    RaisesOnly P (v.atMostLong x message) := by
  unfold atMostLong
  split
  · next hkind =>
    exact .bind (listLengthMessage_raises (beq_iff_eq.1 hkind) (by decide) hobjects _ _) fun _ _ =>
      .pure _
  · next hkind =>
    have hkind : v.kind ≠ .array := fun h => hkind (beq_iff_eq.2 h)
    exact .bind (refuseNegative_raises hschema hkind (by decide) hobjects _) fun _ _ => .pure _

theorem candidates_raises {values : Value} (hm : m ∈ [.isIn, .notIn])
    (hobjects : ∀ f, Objects v.kind m [values] f → P (.fault f)) (argument : String) {r : Raised}
    (h : candidates values argument = .error r) : P r := by
  unfold candidates at h
  split at h
  case h_1 | h_2 | h_3 =>
    cases h
    exact hschema _ rfl
  split at h
  · cases h
    exact hschema _ rfl
  · next items hitems =>
    rcases Attempt.bind_eq_error.1 h with h | ⟨_, _, h⟩
    · cases hdistinct : values.distinct items with
      | ok found =>
        rw [hdistinct] at h
        cases h
      | error f =>
        rw [hdistinct] at h
        cases h
        exact hobjects f (.values hm hitems hdistinct)
    · split at h
      · cases h
        exact hschema _ rfl
      · cases h

theorem isIn_raises {values : Value}
    (hobjects : ∀ f, Objects v.kind .isIn [values] f → P (.fault f)) (message : Value) :
    RaisesOnly P (Build.ofExcept (v.isIn values message)) :=
  .ofExcept fun r hr => by
    rcases Attempt.bind_eq_error.1 hr with hr | ⟨_, _, hr⟩
    · exact candidates_raises hschema (by decide) hobjects _ hr
    · cases hr

theorem notIn_raises {values : Value}
    (hobjects : ∀ f, Objects v.kind .notIn [values] f → P (.fault f)) (message : Value) :
    RaisesOnly P (Build.ofExcept (v.notIn values message)) :=
  .ofExcept fun r hr => by
    rcases Attempt.bind_eq_error.1 hr with hr | ⟨_, _, hr⟩
    · exact candidates_raises hschema (by decide) hobjects _ hr
    · cases hr

theorem range_raises {low high : Value}
    (hobjects : ∀ f, Objects v.kind .range [low, high] f → P (.fault f)) (message : Value) :
    RaisesOnly P (v.range low high message) := by
  refine .bind (.ofFault fun f hf => hobjects f (.bounds hf)) fun reversed hreversed => ?_
  simp only
  split
  · next htrue =>
    subst htrue
    have hlong : ∀ x ∈ [low, high], RaisesOnly P (Build.plain x) := fun x hx =>
      .plain fun hlong => hobjects _ (.reversed hreversed.ofFault hx hlong)
    refine .bind (hlong low List.mem_cons_self) fun _ _ => .bind (hlong high ?_) fun _ _ => ?_
    · exact List.mem_cons_of_mem _ List.mem_cons_self
    · exact .bind (.schemaError hschema _ _) fun _ _ => .pure _
  · exact .pure _

/-- The methods of one argument that blueprints know. -/
theorem extendWith_raises {x : Value}
    (hm : m ∈ [.min, .max, .length, .minLength, .maxLength, .pattern, .isIn, .notIn,
      .equals, .notEquals])
    (hkind : m.isOf v.kind = true) (hobjects : ∀ f, Objects v.kind m [x] f → P (.fault f))
    (message : Value) :
    RaisesOnly P (v.extendWith m x message) := by
  simp only [List.mem_cons, List.not_mem_nil, or_false] at hm
  rcases hm with rfl | rfl | rfl | rfl | rfl | rfl | rfl | rfl | rfl | rfl
  case inr.inr.inl =>
    have hstring : v.kind ≠ .array := fun h => by
      rw [h] at hkind
      cases hkind
    exact .bind (refuseNegative_raises hschema hstring (by decide) hobjects _) fun _ _ => .pure _
  case inr.inr.inr.inl => exact atLeastLong_raises hschema hobjects message
  case inr.inr.inr.inr.inl => exact atMostLong_raises hschema hobjects message
  case inr.inr.inr.inr.inr.inl =>
    refine .bind (toPattern_raises hobjects) fun p _ => ?_
    cases p <;> exact .pure _
  case inr.inr.inr.inr.inr.inr.inl => exact isIn_raises hschema hobjects message
  case inr.inr.inr.inr.inr.inr.inr.inl => exact notIn_raises hschema hobjects message
  all_goals exact .pure _

end

end Validator

end Attest
