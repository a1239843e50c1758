import Attest.Pipeline
import Attest.Proofs.Promises

/-!
# Settlement

Validators leave no promise open. One that is judged without raising failures drops what it is
promised; one that is waited for keeps every promise it has met; and it promises an answer of its
own only if it was promised one. The exception are composites that an entry ends at once, as by a
cancellation: they leave the promises of the entries before it behind.

* `settles_or_drops`: what becomes of the promises of a validator, and of a pipeline that is
  dropped.
* `isPromised_iff_called`: when a validator promises its answer.
* `settles_unless_interrupted`: what becomes of the promises of a composite.
-/

namespace Attest

namespace Call

theorem through_accounted {functions : List Program} (h : ∀ p ∈ functions, ∀ v, (p [v]).Accounted) :
    ∀ {c : Call Value}, c.Accounted → (c.through functions).Accounted := by
  induction functions with
  | nil => exact fun hc => hc
  | cons p rest ih =>
    intro c hc
    exact ih (fun q hq => h q (List.mem_cons_of_mem p hq))
      (hc.proceed fun v _ => h p List.mem_cons_self v)

end Call

theorem World.ofRoutines_neverCancelsAtOnce {routines : List Routine} {now : Calendar.Moment}
    (h : ∀ r ∈ routines, r.pauses = none → ∀ args, r.job.outcome args ≠ .error .cancelled) :
    (World.ofRoutines routines now).NeverCancelsAtOnce := by
  intro f args hp
  simp only [World.ofRoutines, Routine.reply, List.getD_eq_getElem?_getD] at hp ⊢
  cases hr : routines[f.index]? with
  | none => simp [Job.outcome]
  | some r =>
    rw [hr] at hp
    exact h r (List.mem_of_getElem? hr) hp args

namespace Validator

variable {w : World} {args : List Value}

theorem call_tidy (hw : w.NeverCancelsAtOnce) (v : Validator)
    (hrun : v.staysWritable w args = true) :
    (v.call w args).Tidy := by
  simp only [staysWritable, Bool.and_eq_true] at hrun
  refine Step.isTidy hw v.step _ ?_ hrun.2
  split
  · rfl
  · exact hrun.1

/-- A promised answer that is not wanted is dropped, which is a mistake. -/
theorem callSafely_of_isPromised {v : Validator} (hp : (v.call w args).isPromised = true) :
    v.callSafely w args = ⟨(v.call w args).discard, .raised v.notImmediate⟩ := by
  simp only [Call.isPromised] at hp
  simp only [callSafely]
  split at hp
  · next ha => rw [ha]
  · cases hp

/-- Where a validator promises its answer, promises have been handed out to it. Judged without
raising failures, it refuses to wait and drops all of them, with no work done on any. Waited for, it
has begun and kept all of them by the end, and those that were handed out meanwhile. So does a
pipeline of user functions drop what was handed out, if it is dropped itself. -/
theorem settles_or_drops (hw : w.NeverCancels) (v : Validator)
    (hrun : v.staysWritable w args = true) (hp : (v.call w args).isPromised = true) :
    (handedOut (v.call w args).events ≠ [] ∧
      (v.callSafely w args).answer = .raised v.notImmediate ∧
      handedOut (v.callSafely w args).events = handedOut (v.call w args).events ∧
      Drops (v.callSafely w args).events) ∧
    Settles [] (v.call w args).settle.1 ∧
    ∀ (c : Call Value) (functions : List FunctionId),
      ((∃ x, c = .returned x) ∨ ∃ f inputs, c = w.call f inputs) →
        handedOut (c.through (functions.map w.call)).discard =
          handedOut (c.through (functions.map w.call)).events ∧
        Drops (c.through (functions.map w.call)).discard := by
  have hcall := (v.call_tidy hw.atOnce hrun).accounted
  rw [callSafely_of_isPromised hp]
  refine ⟨⟨hcall.isPromised_iff.1 hp, rfl, Call.handedOut_discard _, hcall.discard_drops⟩,
    hcall.settle_settles, fun c functions hc => ⟨Call.handedOut_discard _, ?_⟩⟩
  have hfirst : c.Accounted := by
    rcases hc with ⟨x, rfl⟩ | ⟨f, inputs, rfl⟩
    · exact .returned x
    · exact w.call_accounted f inputs
  refine (Call.through_accounted (fun p hmem u => ?_) hfirst).discard_drops
  obtain ⟨f, -, rfl⟩ := List.mem_map.1 hmem
  exact w.call_accounted f [u]

/-- A record with a choice, a default and a list, all of which wait for something. -/
example :
    let w := World.ofRoutines
      [⟨.identity, none, some 1⟩, ⟨.raise (.fault (.raised "ValueError" "odd")), none, some 0⟩,
        ⟨.constant (.text "x"), none, some 2⟩]
      (.ofDate ⟨2024, 1, 1⟩)
    let v : Validator := ⟨.object, .inside [.text "root"] (.fields .all .null
      [(.text "a", .union [.call (.function ⟨1⟩), .call (.function ⟨0⟩)] .null),
        (.text "b", .optional (.coerce .integer .null) (.produced (.function ⟨2⟩))),
        (.text "c", .elements .null (.call (.function ⟨0⟩)))])⟩
    let args := [Value.map [(.text "a", .int 1), (.text "c", .list [.int 2, .int 3])]]
    v.staysWritable w args = true ∧ (v.call w args).isPromised = true ∧
      unsettled (v.callSafely w args).events = 0 ∧ unsettled (v.call w args).settle.1 = 0 := by
  decide +kernel

/-- A validator promises its answer just where a user function that it has called promised its own;
then it waits for just these promises, and raises nothing at once. Otherwise it answers or raises at
once, and in particular where all functions that it has called answer at once. -/
theorem isPromised_iff_called (hw : w.NeverCancels) (v : Validator)
    (hrun : v.staysWritable w args = true) :
    ((v.call w args).isPromised = true ↔
      ∃ h, .called h ∈ (v.call w args).events ∧ h.isPromise = true) ∧
    ((∃ h, .called h ∈ (v.call w args).events ∧ h.isPromise = true) →
      ∃ p, (v.call w args).answer = .promised (handedOut (v.call w args).events) p) ∧
    ((∀ h, .called h ∈ (v.call w args).events → h.isPromise = false) →
      (∃ u, (v.call w args).answer = .returned u) ∨ ∃ r, (v.call w args).answer = .raised r) := by
  have hcall := (v.call_tidy hw.atOnce hrun).accounted
  have hout := hcall.handedOut
  have hcalled : (v.call w args).isPromised = true ↔
      ∃ h, .called h ∈ (v.call w args).events ∧ h.isPromise = true := by
    rw [hcall.isPromised_iff]
    simp only [← mem_handedOut]
    exact ⟨List.exists_mem_of_ne_nil _, fun ⟨_, hmem⟩ => List.ne_nil_of_mem hmem⟩
  refine ⟨hcalled, fun hsome => ?_, fun hnone => ?_⟩
  · have hp := hcalled.2 hsome
    rw [hout]
    unfold Call.isPromised at hp
    unfold Call.handles
    split at hp
    · next p ha => exact ⟨p, by rw [ha]⟩
    · cases hp
  · refine Call.answer_of_not_promised (Bool.eq_false_iff.2 fun hp => ?_)
    obtain ⟨h, hmem, hh⟩ := hcalled.1 hp
    rw [hnone h hmem] at hh
    cases hh

/-- A record of two chains that end in a promise. The first one fails before it comes to that. -/
example :
    let w := World.ofRoutines [⟨.identity, none, some 1⟩] (.ofDate ⟨2024, 1, 1⟩)
    let chain (label : FunctionId) : Step :=
      .andThen (.check .positive .null .missing "test") (.change (.apply (.function label)))
    let v : Validator := ⟨.object, .fields .strict .null
      [(.text "a", chain ⟨0⟩), (.text "b", chain ⟨1⟩), (.text "c", chain ⟨0⟩)]⟩
    let args := [Value.map [(.text "a", .int (-1)), (.text "b", .int 1), (.text "c", .int 1)]]
    v.staysWritable w args = true ∧ (v.call w args).isPromised = true ∧
      handedOut (v.call w args).events = [⟨⟨0⟩, none, true⟩] := by
  decide +kernel

end Validator

/-! ## Composites that are ended at once -/

/-- A composite of which no entry leaves promises open on its own leaves some just where an entry
raises at once what nothing catches, after another one has promised its answer. As long as no
function is cancelled as it is called, this does not happen, and all promises are begun and kept in
the end, whatever a step raises and wherever in others it stands. -/
theorem Composite.settles_unless_interrupted (c : Composite) {entries : List Entry}
    (h : ∀ e ∈ entries, e.IsAccounted) :
    (Settles [] (c.collect entries).settle.1 ↔
      ∀ before e after findings r, entries = before ++ e :: after →
        (Entry.findAll before).answer = .returned findings → e.find.answer = .raised r →
          findings.flatMap (·.2.handles) = []) ∧
    ∀ (w : World) (s : Step) (args : List Value), w.NeverCancelsAtOnce →
      args.all Value.isWritable = true → s.staysWritable w args = true →
        Settles [] (s.program w args).settle.1 :=
  ⟨c.collect_settles_iff h, fun _ s args hw hargs hs =>
    (s.isTidy hw args hargs hs).accounted.settle_settles⟩

/-- A record in which a promise ends in a cancellation while others are worked on, and two entries
of which the second cannot even be refused after the first has promised its answer. -/
theorem Composite.settles_unless_interrupted_record :
    let w := World.ofRoutines [⟨.identity, none, some 2⟩, ⟨.raise .cancelled, none, some 1⟩]
      (.ofDate ⟨2024, 1, 1⟩)
    let s : Step := .fields .strict .null
      [(.text "a", .call (.function ⟨0⟩)), (.text "b", .elements .null (.call (.function ⟨1⟩)))]
    let args := [Value.map [(.text "a", .int 1), (.text "b", .list [.int 2])]]
    let c : Composite := ⟨fun _ => .null, .error .endless⟩
    let entries : List Entry :=
      [.judged (.int 0) (.int 1) (w.call ⟨0⟩), .refused (.int 1) (.error .tooManyDigits)]
    w.NeverCancelsAtOnce ∧ s.staysWritable w args = true ∧
      Call.isCancelled (s.program w args).settle.2 = true ∧
      Settles [] (s.program w args).settle.1 ∧
      (∀ e ∈ entries, e.IsAccounted) ∧ ¬ Settles [] (c.collect entries).settle.1 := by
  intro w s args c entries
  have hw : w.NeverCancelsAtOnce := World.ofRoutines_neverCancelsAtOnce (by simp)
  have hs : s.staysWritable w args = true := by decide +kernel
  have hentries : ∀ e ∈ entries, e.IsAccounted := by
    intro e he
    rcases List.mem_cons.1 he with rfl | he
    · exact w.call_accounted ⟨0⟩ [.int 1]
    · cases List.mem_singleton.1 he
      trivial
  have h := settles_unless_interrupted c hentries
  refine ⟨hw, hs, by decide +kernel, h.2 w s args hw (by decide +kernel) hs,
    hentries, fun hopen => ?_⟩
  have hnone := h.1.1 hopen [.judged (.int 0) (.int 1) (w.call ⟨0⟩)]
    (.refused (.int 1) (.error .tooManyDigits)) [] _ _ rfl rfl rfl
  cases hnone

/-- The first field of a record has promised its answer when the second is cancelled: that promise
is neither kept nor dropped. -/
theorem Composite.interrupted_record :
    let w := World.ofRoutines [⟨.identity, none, some 0⟩, ⟨.raise .cancelled, none, none⟩]
      (.ofDate ⟨2024, 1, 1⟩)
    let v : Validator := ⟨.object, .fields .strict .null
      [(.text "a", .call (.function ⟨0⟩)), (.text "b", .call (.function ⟨1⟩))]⟩
    let args := [Value.map [(.text "a", .int 1), (.text "b", .int 2)]]
    v.staysWritable w args = true ∧ Call.isCancelled (v.call w args).settle.2 = true ∧
      handedOut (v.call w args).settle.1 = [⟨⟨0⟩, none, true⟩] ∧
      kept (v.call w args).settle.1 = [] ∧ dropped (v.call w args).settle.1 = [] ∧
      unsettled (v.call w args).settle.1 = 1 := by
  decide +kernel

end Attest
