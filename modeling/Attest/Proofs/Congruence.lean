import Attest.Proofs.Outcome
import Mathlib.Data.List.Forall2

/-!
# Congruence

A relation between programs that every combinator preserves relates the meanings of every step. What
is to be shown of all steps is thereby shown combinator by combinator, and no proof but the one here
walks through the syntax. The relation may be one that only holds where all values are of some kind.

* `Value.IsKept`: a kind of values that is never left.
* `Step.constants`: the values that a step brings in itself.
* `Congruence.step`: the meanings of a step in two worlds are related.
-/

namespace Attest

/-- A property of values that is kept by all that makes a value from others. -/
structure Value.IsKept (P : Value → Prop) : Prop where
  missing : P .missing
  holds (b : Bool) : P (.bool b)
  coerced {kind : Kind} {v u : Value} : P v → kind.accepts? v = .ok (some u) → P u
  changed {c : Change} {v u : Value} : P v → c.applied v = .ok u → P u
  constructed {t : DataType} {args : List Value} {u : Value} :
    (∀ v ∈ args, P v) → Value.construct t args = .ok u → P u

/-- What every value has is kept. -/
theorem Value.isKept_true : Value.IsKept fun _ => True where
  missing := trivial
  holds _ := trivial
  coerced _ _ := trivial
  changed _ _ := trivial
  constructed _ _ := trivial

/-! ## Values of a step -/

mutual

def Callable.constants : Callable → List Value
  | .step s => s.constants
  | _ => []

def Check.constants : Check → List Value
  | .satisfies f => f.constants
  | _ => []

def Change.constants : Change → List Value
  | .apply f => f.constants
  | _ => []

def Default.constants : Default → List Value
  | .none => []
  | .value v => [v]
  | .produced f => f.constants

/-- The values that a step may bring into an answer: the defaults, and the keys of records. -/
def Step.constants : Step → List Value
  | .accept | .coerce _ _ => []
  | .call f => f.constants
  | .guarded s _ | .inside _ s | .elements _ s => s.constants
  | .change c => c.constants
  | .check c _ _ _ => c.constants
  | .andThen s t => s.constants ++ t.constants
  | .optional s default => s.constants ++ default.constants
  | .union alternatives _ => Step.allConstants alternatives
  | .fields _ _ entries => Step.fieldConstants entries

def Step.allConstants : List Step → List Value
  | [] => []
  | s :: rest => s.constants ++ Step.allConstants rest

def Step.fieldConstants : List (Value × Step) → List Value
  | [] => []
  | (key, s) :: rest => key :: s.constants ++ Step.fieldConstants rest

end

/-! ## Related programs -/

namespace Program

/-- A program that answers at once, whatever it is asked, and never with a cancellation. -/
def IsImmediate (p : Program) : Prop :=
  ∀ args, ∃ x : Except Raised Value, x ≠ .error .cancelled ∧ p args = Call.ofExcept x

/-- A program that answers values of a kind to values of that kind. -/
def Keeps (P : Value → Prop) (p : Program) : Prop :=
  ∀ args, (∀ v ∈ args, P v) → ∀ u, (p args).outcome = .ok u → P u

/-- Two substitutes of the same kind with related programs. -/
inductive Substitute.Related (P : Value → Prop) (R : Program → Program → Prop) :
    Substitute → Substitute → Prop
  | none : Related P R .none .none
  | value {v : Value} : P v → Related P R (.value v) (.value v)
  | produced {p q : Program} : R p q → Related P R (.produced p) (.produced q)

/-- Two fields of the same key with related programs. -/
def FieldRelated (P : Value → Prop) (R : Program → Program → Prop) (f g : Value × Program) : Prop :=
  (P f.1 ∧ f.1 = g.1) ∧ R f.2 g.2

end Program

namespace Fields

variable {P : Value → Prop} {R : Program → Program → Prop} {ps qs : List (Value × Program)}

end Fields

/-- A relation between the programs of two worlds that holds of the user functions and that every
combinator preserves, as long as all values are of a kind. -/
structure Congruence (w w' : World) (P : Value → Prop) (R : Program → Program → Prop) : Prop where
  sameTime : w.now = w'.now
  isKept : Value.IsKept P
  function : ∀ f, R (w.call f) (w'.call f)
  immediate : ∀ {p}, p.IsImmediate → p.Keeps P → R p p
  called : ∀ {p q}, R p q → R (fun args => p (if args.isEmpty then [.missing] else args))
    fun args => q (if args.isEmpty then [.missing] else args)
  guarded : ∀ {p q} comparison, R p q → R (p.guarded comparison) (q.guarded comparison)
  satisfying : ∀ {p q} message expected comparison, R p q →
    R (p.satisfying message expected comparison) (q.satisfying message expected comparison)
  andThen : ∀ {p q p' q'}, R p q → R p' q' → R (p.andThen p') (q.andThen q')
  optional : ∀ {p q s t}, R p q → Program.Substitute.Related P R s t →
    R (p.optional s) (q.optional t)
  union : ∀ {ps qs} message, List.Forall₂ R ps qs → R (Program.union ps message)
    (Program.union qs message)
  fields : ∀ {ps qs} mode message, List.Forall₂ (Program.FieldRelated P R) ps qs →
    R (Program.fields mode message ps) (Program.fields mode message qs)
  elements : ∀ {p q} message, R p q → R (Program.elements message p) (Program.elements message q)
  inside : ∀ {p q} path, R p q → R (p.inside path) (q.inside path)

/-! ## Programs that answer at once -/

theorem Raised.ofFailure_ne_cancelled (x : Except Fault Failure) :
    Raised.ofFailure x ≠ .cancelled := by
  cases x <;> simp [ofFailure]

theorem Raised.fail_ne_cancelled (p : Notice.Parts) : Raised.fail p ≠ .cancelled :=
  Raised.ofFailure_ne_cancelled (Failure.make p [])

theorem Kind.coerce_ne_cancelled (kind : Kind) (message v : Value) :
    kind.coerce message v ≠ .error .cancelled := by
  unfold coerce
  split
  · simp
  · have h : wrongKind kind message v ≠ .cancelled := by
      unfold wrongKind
      exact Raised.fail_ne_cancelled _
    simpa using h
  · simp

namespace Program

/-- The first answer as it is, or a fault: what all programs without user functions come to. -/
theorem isImmediate_of_fault (f : List Value → Except Fault Value) :
    IsImmediate fun args => match f args with
      | .ok v => Call.returned v
      | .error e => Call.raised (.fault e) := by
  intro args
  simp only
  cases f args with
  | ok v => exact ⟨.ok v, by simp, rfl⟩
  | error e => exact ⟨.error (.fault e), by simp, rfl⟩

theorem pure_isImmediate (f : Value → Except Fault Value) : (Program.pure f).IsImmediate :=
  isImmediate_of_fault fun args => f (firstArgument args)

theorem accept_isImmediate : IsImmediate fun args => Call.returned (firstArgument args) :=
  isImmediate_of_fault fun args => .ok (firstArgument args)

theorem coerce_isImmediate (kind : Kind) (message : Value) :
    IsImmediate fun args => Call.ofExcept (kind.coerce message (firstArgument args)) := fun _ =>
  ⟨_, kind.coerce_ne_cancelled message _, rfl⟩

end Program

/-! ## Values of a kind -/

section
variable {P : Value → Prop} (h : Value.IsKept P) {args : List Value}
include h

theorem firstArgument_isKept (hargs : ∀ v ∈ args, P v) : P (firstArgument args) := by
  cases args with
  | nil => exact h.missing
  | cons v rest => exact hargs v List.mem_cons_self

theorem pure_keeps {f : Value → Except Fault Value} (hf : ∀ v u, P v → f v = .ok u → P u) :
    (Program.pure f).Keeps P := by
  intro args hargs u hu
  unfold Program.pure at hu
  cases hx : f (firstArgument args) with
  | ok x =>
    rw [hx] at hu
    cases hu
    exact hf _ _ (firstArgument_isKept h hargs) hx
  | error e =>
    rw [hx] at hu
    cases hu

theorem coerce_keeps (kind : Kind) (message : Value) :
    Program.Keeps P fun args => Call.ofExcept (kind.coerce message (firstArgument args)) := by
  intro args hargs u hu
  rw [Call.outcome_ofExcept] at hu
  unfold Kind.coerce at hu
  split at hu
  · next hx =>
    cases hu
    exact h.coerced (firstArgument_isKept h hargs) hx
  · cases hu
  · cases hu

theorem construct_keeps (t : DataType) : Program.Keeps P fun args =>
    match Value.construct t args with
    | .ok v => Call.returned v
    | .error e => Call.raised (.fault e) := by
  intro args hargs u hu
  simp only at hu
  split at hu
  · next hx =>
    cases hu
    exact h.constructed hargs hx
  · cases hu

theorem check_keeps {w : World} (c : Check) :
    (Program.pure fun v => do return .bool (← c.holds w.now v)).Keeps P := by
  refine pure_keeps h fun v u _ hu => ?_
  obtain ⟨b, -, hb⟩ := Attempt.bind_eq_ok.1 hu
  cases hb
  exact h.holds b

end

/-! ## All steps -/

namespace Congruence

variable {w w' : World} {P : Value → Prop} {R : Program → Program → Prop}

mutual

theorem callable (h : Congruence w w' P R) : ∀ c : Callable, (∀ v ∈ c.constants, P v) →
    R (c.program w) (c.program w')
  | .function f => fun _ => by
    simp only [Callable.program]
    exact h.function f
  | .type t => fun _ => by
    simp only [Callable.program]
    exact h.immediate (Program.isImmediate_of_fault _) (construct_keeps h.isKept t)
  | .step s => fun hs => by
    simp only [Callable.program]
    simp only [Callable.constants] at hs
    exact h.called (h.step s hs)
  | .nothing type => fun _ => by
    simp only [Callable.program]
    exact h.immediate (fun _ => ⟨.error (.fault (.notCallable type)), by simp, rfl⟩) nofun

theorem check (h : Congruence w w' P R) : ∀ c : Check, (∀ v ∈ c.constants, P v) →
    R (c.program w) (c.program w')
  | .satisfies f => fun hf => by
    simp only [Check.program]
    simp only [Check.constants] at hf
    exact h.callable f hf
  | .equals _ | .differs _ | .among _ | .notAmong _ | .compares _ _ | .between _ _ | .lengthIs _
  | .lengthCompares _ _ | .notEmpty | .hasMatch _ | .startsWith _ | .endsWith _ | .contains _
  | .integral | .finite | .multipleOf _ | .positive | .negative | .past | .future | .distinct
  | .hasKeys _ | .impossible _ => fun _ => by
    simp only [Check.program, h.sameTime]
    exact h.immediate (Program.pure_isImmediate _) (check_keeps h.isKept _)

theorem change (h : Congruence w w' P R) : ∀ c : Change, (∀ v ∈ c.constants, P v) →
    R (c.program w) (c.program w')
  | .apply f => fun hf => by
    simp only [Change.program]
    simp only [Change.constants] at hf
    exact h.callable f hf
  | .trim | .lower | .upper | .power _ => fun _ => by
    simp only [Change.program]
    exact h.immediate (Program.pure_isImmediate _) (pure_keeps h.isKept fun _ _ => h.isKept.changed)

theorem substitute (h : Congruence w w' P R) : ∀ d : Default, (∀ v ∈ d.constants, P v) →
    Program.Substitute.Related P R (d.substitute w) (d.substitute w')
  | .none => fun _ => by
    simp only [Default.substitute]
    exact .none
  | .value v => fun hv => by
    simp only [Default.substitute]
    simp only [Default.constants, List.mem_singleton, forall_eq] at hv
    exact .value hv
  | .produced f => fun hf => by
    simp only [Default.substitute]
    simp only [Default.constants] at hf
    exact .produced (h.callable f hf)

/-- The meanings of a step in the two worlds are related. -/
theorem step (h : Congruence w w' P R) : ∀ s : Step, (∀ v ∈ s.constants, P v) →
    R (s.program w) (s.program w')
  | .accept => fun _ => by
    simp only [Step.program]
    refine h.immediate Program.accept_isImmediate fun args hargs u hu => ?_
    cases hu
    exact firstArgument_isKept h.isKept hargs
  | .coerce kind message => fun _ => by
    simp only [Step.program]
    exact h.immediate (Program.coerce_isImmediate kind message) (coerce_keeps h.isKept kind message)
  | .call f => fun hf => by
    simp only [Step.program]
    simp only [Step.constants] at hf
    exact h.callable f hf
  | .guarded s comparison => fun hs => by
    simp only [Step.program]
    simp only [Step.constants] at hs
    exact h.guarded comparison (h.step s hs)
  | .change c => fun hc => by
    simp only [Step.program]
    simp only [Step.constants] at hc
    exact h.change c hc
  | .check c message expected comparison => fun hc => by
    simp only [Step.program]
    simp only [Step.constants] at hc
    exact h.satisfying message expected comparison (h.check c hc)
  | .andThen s t => fun hst => by
    simp only [Step.program]
    simp only [Step.constants, List.mem_append] at hst
    exact h.andThen (h.step s fun v hv => hst v (.inl hv)) (h.step t fun v hv => hst v (.inr hv))
  | .optional s default => fun hs => by
    simp only [Step.program]
    simp only [Step.constants, List.mem_append] at hs
    exact h.optional (h.step s fun v hv => hs v (.inl hv))
      (h.substitute default fun v hv => hs v (.inr hv))
  | .union alternatives message => fun hs => by
    simp only [Step.program]
    simp only [Step.constants] at hs
    exact h.union _ (h.steps alternatives hs)
  | .fields mode message entries => fun hs => by
    simp only [Step.program]
    simp only [Step.constants] at hs
    exact h.fields mode message (h.fieldSteps entries hs)
  | .elements message element => fun hs => by
    simp only [Step.program]
    simp only [Step.constants] at hs
    exact h.elements message (h.step element hs)
  | .inside path s => fun hs => by
    simp only [Step.program]
    simp only [Step.constants] at hs
    exact h.inside path (h.step s hs)

theorem steps (h : Congruence w w' P R) : ∀ ss : List Step, (∀ v ∈ Step.allConstants ss, P v) →
    List.Forall₂ R (Step.programs w ss) (Step.programs w' ss)
  | [] => fun _ => by
    simp only [Step.programs]
    exact .nil
  | s :: rest => fun hs => by
    simp only [Step.programs]
    simp only [Step.allConstants, List.mem_append] at hs
    exact .cons (h.step s fun v hv => hs v (.inl hv)) (h.steps rest fun v hv => hs v (.inr hv))

theorem fieldSteps (h : Congruence w w' P R) : ∀ entries : List (Value × Step),
    (∀ v ∈ Step.fieldConstants entries, P v) →
    List.Forall₂ (Program.FieldRelated P R) (Step.fieldPrograms w entries)
      (Step.fieldPrograms w' entries)
  | [] => fun _ => by
    simp only [Step.fieldPrograms]
    exact .nil
  | (key, s) :: rest => fun hs => by
    simp only [Step.fieldPrograms]
    simp only [Step.fieldConstants, List.mem_append, List.mem_cons] at hs
    exact .cons ⟨⟨hs key (.inl (.inl rfl)), rfl⟩, h.step s fun v hv => hs v (.inl (.inr hv))⟩
      (h.fieldSteps rest fun v hv => hs v (.inr hv))

end

/-- Related meanings of a step make related calls of a validator. -/
theorem validator (h : Congruence w w' P R) (v : Validator) (hv : ∀ u ∈ v.step.constants, P u) :
    R (v.call w) (v.call w') :=
  h.called (h.step v.step hv)

end Congruence

end Attest
