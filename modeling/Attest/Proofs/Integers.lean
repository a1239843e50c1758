import Attest.Proofs.Floats
import Attest.Proofs.Membership
import Attest.Proofs.Transforms

/-!
# Checks of integers

What the checks of numbers answer to an integer. Divisibility is decided in exact arithmetic.
Whether a number has no fraction, and whether it is finite, is asked of the float next to it, so an
integer out of the range of floats is refused by both questions.

* `questions_of_lt`, `questions_of_le`, `isMultiple_int`: the questions themselves.
* `Validator.check_eq`: what comes of a check in terms of its question.
* `Validator.integers_checked`: the three checks, on every integer.
-/

namespace Attest

open Number (floatBound)

namespace Value

variable {n b : Int}

/-! ## Questions about integers -/

theorem floatOfInt_eq_ok (h : n.natAbs < floatBound) :
    floatOfInt n = .ok (Number.ofRatio n 1) ∧ Number.isFinite (Number.ofRatio n 1) = true ∧
      (Number.toInt? (Number.ofRatio n 1)).isSome = true := by
  rcases Number.ofRatio_one n with ⟨-, hfinite, hwhole⟩ | ⟨hmore, -⟩
  · refine ⟨?_, hfinite, hwhole⟩
    rw [floatOfInt, Number.ofInt?, hfinite]
    rfl
  · omega

theorem floatOfInt_eq_error (h : floatBound ≤ n.natAbs) :
    floatOfInt n = .error .integerTooLarge := by
  rcases Number.ofRatio_one n with ⟨hless, -⟩ | ⟨-, hfinite⟩
  · omega
  · rw [floatOfInt, Number.ofInt?, hfinite]
    rfl

/-- An integer in the range of floats has no fraction and is finite. -/
theorem questions_of_lt (h : n.natAbs < floatBound) :
    (Value.int n).isIntegral = .ok true ∧ (Value.int n).isFiniteNumber = .ok true := by
  obtain ⟨hfloat, hfinite, hwhole⟩ := floatOfInt_eq_ok h
  constructor
  · simp only [isIntegral, toFloat, numberAsFloat?, hfloat, Attempt.ok_bind, hwhole]
    rfl
  · simp only [isFiniteNumber, numberAsFloat?, hfloat, Attempt.ok_bind, hfinite]
    rfl

theorem questions_of_le (h : floatBound ≤ n.natAbs) :
    (Value.int n).isIntegral = .error .integerTooLarge ∧
      (Value.int n).isFiniteNumber = .error .integerTooLarge := by
  have hfloat := floatOfInt_eq_error h
  constructor
  · simp only [isIntegral, toFloat, numberAsFloat?, hfloat]
    rfl
  · simp only [isFiniteNumber, numberAsFloat?, hfloat]
    rfl

theorem same_zero_eq_false (hb : b ≠ 0) : (Value.int b).same (.int 0) = false := by
  have hcompare : compare b 0 ≠ .eq := fun h => hb (Std.LawfulEqCmp.compare_eq_iff_eq.1 h)
  have hone : Int.pow 2 0 = 1 := rfl
  simp only [same, sameAtom, asNumber?, Number.Extended.compare?, Number.Fraction.compare, hone,
    Int.mul_one, isOne, Bool.or_false, beq_eq_false_iff_ne, ne_eq, Option.some.injEq]
  exact hcompare

theorem isMultiple_int (hb : b ≠ 0) : (Value.int n).isMultiple (.int b) = .ok (decide (b ∣ n)) := by
  have hzero : (b == 0) = false := by simpa using hb
  simp only [isMultiple, asInt?, hzero, Bool.false_eq_true, ↓reduceIte, Except.ok.injEq]
  rw [Bool.eq_iff_iff, beq_iff_eq, decide_eq_true_iff, Int.dvd_iff_emod_eq_zero]

end Value

namespace Validator

variable {v : Validator} {w : World} {args : List Value} {x : Value}

/-! ## Checks -/

/-- A check asks its question of the answer before it; what goes wrong there becomes a failure. -/
theorem check_eq {c : Check} (hx : (v.call w args).outcome = .ok x) (hc : AsksItself c w)
    (message expected : Value) (comparison : String) :
    ((v.check c message expected comparison).call w args).outcome =
      ((((c.holds w.now x).mapError Raised.fault).mapError
        (Raised.promote x (.text comparison))).bind fun holds =>
        if holds then .ok x else .error (Program.refuted message expected comparison x)).mapError
          (Raised.promote x (.text "transform")) := by
  have hv : (v.step.program w (if args.isEmpty then [.missing] else args)).outcome = .ok x := hx
  rw [check, andThen, call, Step.program, Program.andThen_eq, Call.outcome_next, hv, Step.program]
  show ((Program.satisfying (c.program w) message expected comparison).guarded
    (.text "transform") [x]).outcome = _
  rw [Program.guarded_eq, Call.outcome_mapRaised, Program.satisfying_eq]
  simp only [firstArgument, List.headD_cons, Call.outcome_next, Program.guarded_eq,
    Call.outcome_mapRaised]
  rw [hc, Program.pure, firstArgument, List.headD_cons]
  cases c.holds w.now x with
  | ok holds => cases holds <;> rfl
  | error e => rfl

theorem check_accepts {c : Check} (hx : (v.call w args).outcome = .ok x) (hc : AsksItself c w)
    (hholds : c.holds w.now x = .ok true) (message expected : Value) (comparison : String) :
    ((v.check c message expected comparison).call w args).outcome = .ok x := by
  rw [check_eq hx hc, hholds]
  rfl

/-- A value that a check does not hold of meets a failure, whatever of it can be written. -/
theorem check_refuses {c : Check} (hx : (v.call w args).outcome = .ok x) (hc : AsksItself c w)
    (hw : x.isWritable = true) (hholds : c.holds w.now x = .ok false) (message expected : Value)
    (comparison : String) :
    ∃ f, ((v.check c message expected comparison).call w args).outcome = .error (.failure f) := by
  have hplain : Program.refuted message expected comparison x ≠ .cancelled :=
    Raised.fail_ne_cancelled _
  rw [check_eq hx hc, hholds]
  exact ⟨_, congrArg Except.error (Raised.promote_eq hplain hw (Value.isWritable_text _))⟩

/-- A question that ends in a fault says so. -/
theorem check_faults {c : Check} {e : Fault} (hx : (v.call w args).outcome = .ok x)
    (hc : AsksItself c w) (hw : x.isWritable = true) (hholds : c.holds w.now x = .error e)
    (message expected : Value) (comparison : String) :
    ∃ f, ((v.check c message expected comparison).call w args).outcome = .error (.failure f) ∧
      f.message = e.reason := by
  have hplain : (Raised.fault e).IsPlain := ⟨nofun, nofun⟩
  have htext : (Value.text comparison).isShowable = true := rfl
  obtain ⟨hpromoted, hsays⟩ := hplain.promote_eq (Value.isShowable_of_isWritable hw) htext
  rw [check_eq hx hc, hholds]
  refine ⟨(Raised.fault e).promoted x (.text comparison), ?_, hsays⟩
  show Except.error (((Raised.fault e).promote x (.text comparison)).promote x
    (.text "transform")) = _
  rw [hpromoted]
  rfl

/-! ## Integers -/

/-- The check of numbers for having no fraction. -/
def wholeNumber : Validator :=
  (create .number .null).test .integral .null "Expected integer, got $\x7bgot\x7d" .missing

/-- The check of numbers for being finite. -/
def finiteNumber : Validator :=
  (create .number .null).test .finite .null "Expected finite number, got $\x7bgot\x7d" .missing

theorem number_call (n : Int) (w : World) :
    ((create .number .null).call w [.int n]).outcome = .ok (.int n) := rfl

theorem integer_makes :
    ((create .number .null).extend .integer [] none).Makes wholeNumber := fun _ => rfl

theorem finite_makes :
    ((create .number .null).extend .finite [] none).Makes finiteNumber := fun _ => rfl

variable {n : Int}

theorem accepts_of_lt (h : n.natAbs < floatBound) (w : World) :
    (wholeNumber.call w [.int n]).outcome = .ok (.int n) ∧
    (finiteNumber.call w [.int n]).outcome = .ok (.int n) := by
  obtain ⟨hintegral, hfinite⟩ := Value.questions_of_lt h
  have hx := number_call n w
  exact ⟨check_accepts (c := .integral) hx rfl hintegral _ _ _, check_accepts (c :=
    .finite) hx rfl hfinite _ _ _⟩

/-- An integer out of the range of floats is refused for its size. -/
theorem refuses_of_le (hn : (Value.int n).isWritable = true)
    (h : floatBound ≤ n.natAbs) (w : World) :
    ∀ v ∈ [wholeNumber, finiteNumber], ∃ f, (v.call w [.int n]).outcome = .error (.failure f) ∧
      f.message = "int too large to convert to float" := by
  intro v hv
  obtain ⟨hintegral, hfinite⟩ := Value.questions_of_le h
  have hx := number_call n w
  rcases List.mem_cons.1 hv with rfl | hv
  · exact check_faults (c := .integral) hx rfl hn hintegral _ _ _
  · rw [List.mem_singleton.1 hv]
    exact check_faults (c := .finite) hx rfl hn hfinite _ _ _

/-- The checks of numbers on an integer. Being a multiple is decided exactly; the other two accept
the integer just if it is in the range of floats, and complain about its size if it is not. -/
theorem integers_checked (n b : Int) (hn : (Value.int n).isWritable = true)
    (hb : b ≠ 0) (w : World) :
    ∃ integer finite multiple,
      ((create .number .null).extend .integer [] none).Makes integer ∧
      ((create .number .null).extend .finite [] none).Makes finite ∧
      ((create .number .null).extend .multipleOf [.int b] none).Makes multiple ∧
      (n.natAbs < floatBound →
        (integer.call w [.int n]).outcome = .ok (.int n) ∧
        (finite.call w [.int n]).outcome = .ok (.int n)) ∧
      (floatBound ≤ n.natAbs → ∀ v ∈ [integer, finite],
        ∃ f, (v.call w [.int n]).outcome = .error (.failure f) ∧
          f.message = "int too large to convert to float") ∧
      (b ∣ n → (multiple.call w [.int n]).outcome = .ok (.int n)) ∧
      (¬ b ∣ n → ∃ f, (multiple.call w [.int n]).outcome = .error (.failure f)) := by
  have hx := number_call n w
  have hmultiple := Value.isMultiple_int (n := n) hb
  refine ⟨wholeNumber, finiteNumber, (create .number .null).test (.multipleOf (.int b)) .null
    "Expected value ($\x7bgot\x7d) to be a multiple of $\x7bexpected\x7d" (.int b),
    integer_makes, finite_makes, ?_, fun h => accepts_of_lt h w, fun h =>
      refuses_of_le hn h w, ?_, ?_⟩
  · have hzero := Value.same_zero_eq_false hb
    show Build.Makes ((create .number .null).multipleOf (.int b) .null) _
    rw [multipleOf, if_neg (by rw [hzero]; nofun)]
    exact .pure _
  · intro hdvd
    rw [decide_eq_true hdvd] at hmultiple
    exact check_accepts (c := .multipleOf (.int b)) hx rfl hmultiple _ _ _
  · intro hdvd
    rw [decide_eq_false hdvd] at hmultiple
    exact check_refuses (c := .multipleOf (.int b)) hx rfl hn hmultiple _ _ _

/-- An integer that needs more digits than a float has. -/
theorem integers_checked_long :
    let n : Int := 2 ^ 70 + 1
    let w := World.ofRoutines [] (.ofDate ⟨2024, 1, 1⟩)
    (Value.int n).isWritable = true ∧ n.natAbs < floatBound ∧ ¬ (3 : Int) ∣ n ∧
      ∃ integer finite multiple f,
        ((create .number .null).extend .integer [] none).Makes integer ∧
        ((create .number .null).extend .finite [] none).Makes finite ∧
        ((create .number .null).extend .multipleOf [.int 3] none).Makes multiple ∧
        (integer.call w [.int n]).outcome = .ok (.int n) ∧
          (finite.call w [.int n]).outcome = .ok (.int n) ∧
        (multiple.call w [.int n]).outcome = .error (.failure f) := by
  intro n w
  have hn : (Value.int n).isWritable = true := Value.isWritable_int.2 (by decide +kernel)
  have hless : n.natAbs < floatBound := by decide +kernel
  have hdvd : ¬ (3 : Int) ∣ n := by decide
  obtain ⟨integer, finite, multiple, hinteger, hfinite, hmultiple, haccepts, -, -, hrefuses⟩ :=
    integers_checked n 3 hn (by decide) w
  obtain ⟨f, hf⟩ := hrefuses hdvd
  exact ⟨hn, hless, hdvd, integer, finite, multiple, f, hinteger, hfinite, hmultiple,
    (haccepts hless).1, (haccepts hless).2, hf⟩

theorem floatBound_isWritable : (Value.int floatBound).isWritable = true := by
  rw [Value.isWritable_int, Int.natAbs_natCast]
  decide +kernel

/-- The first integer out of the range of floats has no fraction and is finite, and both checks
refuse it. -/
theorem integers_refused_for_size :
    let n : Int := floatBound
    let w := World.ofRoutines [] (.ofDate ⟨2024, 1, 1⟩)
    (Value.int n).isWritable = true ∧ ∃ integer finite f g,
      ((create .number .null).extend .integer [] none).Makes integer ∧
      ((create .number .null).extend .finite [] none).Makes finite ∧
      (integer.call w [.int n]).outcome = .error (.failure f) ∧
        f.message = "int too large to convert to float" ∧
      (finite.call w [.int n]).outcome = .error (.failure g) ∧
        g.message = "int too large to convert to float" := by
  intro n w
  have habs : floatBound ≤ n.natAbs := by rw [Int.natAbs_natCast]
  have hrefuses := refuses_of_le floatBound_isWritable habs w
  obtain ⟨f, hf, hfsays⟩ := hrefuses wholeNumber List.mem_cons_self
  obtain ⟨g, hg, hgsays⟩ := hrefuses finiteNumber (List.mem_cons_of_mem _ List.mem_cons_self)
  exact ⟨floatBound_isWritable, wholeNumber, finiteNumber, f, g, integer_makes, finite_makes, hf,
    hfsays, hg, hgsays⟩

end Validator

end Attest
