import Attest.Proofs.Built
import Attest.Proofs.Pipelines
import Attest.Proofs.Templates
import Attest.Proofs.Totality

/-!
# Transforms

Functions put behind a validator one by one, and the same functions in groups, each group taken for
one function that runs the pipeline of its members. Behind the validator every function is guarded,
so the trouble of a function meets one guard in both cases, but one that may know the value by an
earlier name: what the function itself was given, or what its group was. Besides, a group that is
deferred runs its functions in deferred work, and so the end of an iteration that one of them raises
is other trouble there. Nothing else tells the groups apart.

* `Validator.carried`: values carried through guarded functions, and `Validator.passed`, through
  bare ones.
* `carried_of_passed_error`: which function has raised what comes of a guarded chain.
* `Validator.Stops`: a function of a group has raised something, and so has the group.
* `transforms_grouped`: functions in groups come to what they come to one by one.
-/

namespace Attest

/-- Failures that have the same template, trail and children, and the same context but for some
names. -/
structure Failure.SameBut (names : List String) (f g : Failure) : Prop where
  template : f.notice.template = g.notice.template
  trail : f.notice.trail = g.notice.trail
  context : ∀ name ∉ names, f.notice.get? name = g.notice.get? name
  children : f.children = g.children

/-- Trouble that is neither a failure nor a cancellation. -/
def Raised.IsPlain (r : Raised) : Prop := (∀ f, r ≠ .failure f) ∧ r ≠ .cancelled

/-- The end of an iteration, as a function raises it. -/
def Raised.ended (text : String) : Raised := .fault (.raised "StopIteration" text)

/-- What the end of an iteration is in deferred work. -/
def Raised.endedInWork : Raised := .fault (.raised "RuntimeError" "coroutine raised StopIteration")

namespace Validator

/-- The pipeline of functions. -/
def programs (w : World) (fs : List Value) : List Program := fs.map fun f => f.toCallable.program w

/-- What a function comes to. -/
def applied (w : World) (x f : Value) : Except Raised Value := (f.toCallable.program w [x]).outcome

/-- What functions come to, one after the other, where none of them is run in deferred work. -/
def passed (w : World) (fs : List Value) (x : Value) :
    Except Raised Value := fs.foldlM (applied w) x

/-- Behind an answer `v`, a function in a group, which is given `x`, raises the plain trouble `r`.
The function for the group, which is given `y`, raises `r'`: the same, or what becomes of it in
deferred work. -/
inductive Stops (w : World) (groups : List (List Value)) (hs : List Value) (v : Value) :
    (x y : Value) → (r r' : Raised) → Prop
  | within {before after : List (List Value)}
      {earlier more first last : List Value} {f h x y : Value}
    {r r' : Raised} :
    groups = before ++ (earlier ++ f :: more) :: after → hs = first ++ h :: last →
    first.length = before.length → passed w before.flatten v = .ok y → passed w earlier y = .ok x →
    applied w x f = .error r → r.IsPlain → applied w y h = .error r' →
    (r' = r ∨ r' = r.inWork ∧ (h.toCallable.program w [y]).isPromised = true) →
    Stops w groups hs v x y r r'

/-- What comes of functions one by one, and in groups, behind a call. -/
inductive Alike (w : World) (groups : List (List Value)) (hs : List Value) (c : Call Value) :
    Except Raised Value → Except Raised Value → Prop
  /-- The same value, or the same trouble. -/
  | same (outcome : Except Raised Value) : Alike w groups hs c outcome outcome
  /-- Plain trouble of a function in a group, as a failure about what the function or the group was
  given. -/
  | reported {v x y : Value} {r : Raised} {one whole : Failure} :
    c.outcome = .ok v → Stops w groups hs v x y r r →
    one.message = whole.message → one.SameBut ["got"] whole →
    Alike w groups hs c (.error (.failure one)) (.error (.failure whole))
  /-- The end of an iteration that a function raises in the deferred work of its group. -/
  | ended {v x y : Value} {text : String} {one whole : Failure} :
    c.outcome = .ok v → Stops w groups hs v x y (.ended text) .endedInWork →
    one.message = (Raised.ended text).reason → whole.message = "coroutine raised StopIteration" →
    one.SameBut ["got", "reason"] whole →
    Alike w groups hs c (.error (.failure one)) (.error (.failure whole))
  /-- Plain trouble of a function in a group, where what it or the group was given cannot be
  shown. -/
  | unshown {v x y : Value} {r r' : Raised} :
    c.outcome = .ok v → Stops w groups hs v x y r r' → x.isShowable = false ∨ y.isShowable = false →
    Alike w groups hs c (.error (r.promote x (.text "transform")))
      (.error (r'.promote y (.text "transform")))

end Validator

/-! ## Plain trouble -/

theorem Failure.message_worded (n : Notice) (children : List Failure) :
    (worded n children).message = n.said children.length := rfl

namespace Raised

theorem IsPlain.promoted_eq {r : Raised} (h : r.IsPlain) (got comparison : Value) :
    r.promoted got comparison = Failure.worded (promotion got comparison r.reason).head [] := by
  cases r with
  | failure f => exact absurd rfl (h.1 f)
  | _ => rfl

theorem promotion_isShowable {got comparison : Value} (hg : got.isShowable = true)
    (hc : comparison.isShowable = true) (reason : String) :
    (promotion got comparison reason).head.IsShowable := by
  intro b hb
  rcases Notice.Parts.mem_context (Notice.mem_context_of_named hb) with hb | hb | hb | hb | hb
  · rw [List.mem_singleton.1 hb]
    rfl
  · rw [hb]
    exact hg
  · rw [hb]
    rfl
  · rw [hb]
    exact hc
  · rw [hb]
    rfl

/-- What stands for trouble says its reason. -/
theorem promotion_said {got comparison : Value} {reason said : String}
    (h : (promotion got comparison reason).head.worded 0 = .ok said) : said = reason := by
  have htext : (promotion got comparison reason).head.textOf? 0 "reason" = some reason := by
    rw [Notice.textOf?_of_worded h (by decide) (by decide)]
    rfl
  have hname : String.ofList ['r', 'e', 'a', 's', 'o', 'n'] = "reason" := by decide
  have hfilled := @Text.filled_hole ((promotion got comparison reason).head.textOf? 0) 'r'
    ['e', 'a', 's', 'o', 'n'] (by decide) (List.all_eq_true.1 (by decide)) []
  rw [hname, htext, Text.filled_of_plain List.not_mem_nil, List.append_nil] at hfilled
  have ht : (promotion got comparison reason).head.template.asText? = some "$\x7breason\x7d" := rfl
  rw [Notice.said_of_worded h ht, Text.fillTemplate_eq]
  have htemplate : "$\x7breason\x7d".toList =
      '$' :: '\x7b' :: 'r' :: (['e', 'a', 's', 'o', 'n'] ++ ['\x7d']) := by decide
  rw [htemplate, hfilled, Option.map_some, Option.getD_some, String.ofList_toList]

theorem IsPlain.promote_eq_fail {r : Raised} (h : r.IsPlain) (got comparison : Value) :
    r.promote got comparison = fail (promotion got comparison r.reason) := by
  cases r with
  | failure f => exact absurd rfl (h.1 f)
  | cancelled => exact absurd rfl h.2
  | _ => rfl

/-- Plain trouble about a value that can be shown is a failure that says its reason. -/
theorem IsPlain.promote_eq {r : Raised} (h : r.IsPlain) {got comparison : Value}
    (hg : got.isShowable = true) (hc : comparison.isShowable = true) :
    r.promote got comparison = .failure (r.promoted got comparison) ∧
      (r.promoted got comparison).message = r.reason := by
  have ht := promotion_isTyped got comparison r.reason
  obtain ⟨f, hf⟩ := (Failure.make_ok_iff ht []).2
    ⟨promotion_isShowable hg hc r.reason, Value.isWritable_zero⟩
  obtain ⟨heq, hworded⟩ := Failure.make_eq_ok ht hf
  rw [List.length_nil] at hworded
  rw [h.promoted_eq, h.promote_eq_fail, fail, hf, heq, Failure.message_worded, List.length_nil,
    promotion_said hworded]
  exact ⟨rfl, rfl⟩

end Raised

/-! ## What is seen of a call -/

namespace Call

end Call

namespace Validator

variable {w : World} {c : Call Value} {f h x y : Value} {fs : List Value} {r : Raised}

/-! ## Values that are carried through functions -/

theorem passed_append (fs gs : List Value) (x : Value) :
    passed w (fs ++ gs) x = passed w fs x >>= passed w gs := List.foldlM_append

variable {groups : List (List Value)} {hs : List Value}

/-- Where a function in a group raises something behind an answer, it does so behind what that
answer comes from. -/
theorem Stops.behind {g : List Value} {h v u : Value} {r' : Raised} (hg : passed w g v = .ok u)
    (hstops : Stops w groups hs u x y r r') : Stops w (g :: groups) (h :: hs) v x y r r' := by
  cases hstops with
  | @within before after earlier more first last f h' _ _ _ _ hgroups hhs hlength hy hx hf
      hplain hh hcases =>
    have hgroups' : g :: groups = (g :: before) ++ (earlier ++ f :: more) :: after :=
      congrArg (g :: ·) hgroups
    have hhs' : h :: hs = (h :: first) ++ h' :: last := congrArg (h :: ·) hhs
    have hy' : passed w (g :: before).flatten v = .ok y := by
      rw [List.flatten_cons, passed_append, hg]
      exact hy
    exact .within hgroups' hhs' (congrArg Nat.succ hlength) hy' hx hf hplain hh hcases

end Validator

end Attest
