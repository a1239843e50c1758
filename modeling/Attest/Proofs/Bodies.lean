import Attest.Proofs.Rendering
import Attest.Run

/-!
# The two bodies

Each combinator has a body for an answer that is there and one for an answer that is promised. The
two agree: a combinator goes on with an answer, or with what was raised, in one way, now or later.
The only trouble that changes on the way into deferred work is one that ends an iteration, and what
a combinator raises itself never is that.

* `fail_isSteady`, `promote_isSteady`: what the library raises is the same in deferred work.
* `guarded_eq`, `andThen_eq`, `satisfying_eq`, `ifPresent_eq`, `optional_produced`, `firstOf_cons`,
  `inside_eq`: the combinators, with both bodies in one.
-/

namespace Attest

namespace Work

@[simp] theorem append_done : ∀ w : Work, w.append done = w
  | done => rfl
  | event e rest => by rw [append, append_done rest]
  | pause rest => by rw [append, append_done rest]
  | fork tasks rest => by rw [append, append_done rest]

theorem ofEvents_append (events : List Event) (w : Work) :
    (ofEvents events done).append w = ofEvents events w := by
  induction events with
  | nil => rfl
  | cons e rest ih => exact congrArg (event e) ih

theorem append_ofEvents (events : List Event) (w w' : Work) :
    (ofEvents events w).append w' = ofEvents events (w.append w') := by
  induction events with
  | nil => rfl
  | cons e rest ih => exact congrArg (event e) ih

theorem ofEvents_ofEvents (events more : List Event) (w : Work) :
    ofEvents (events ++ more) w = ofEvents events (ofEvents more w) := List.foldr_append

end Work

/-! ## Trouble of the library itself -/

/-- Whether trouble is not one that a user function raises. -/
def Fault.isOwn : Fault → Bool
  | .raised _ _ => false
  | _ => true

theorem Fault.IsUnwritable.isOwn {e : Fault} (h : e.IsUnwritable) : e.isOwn = true := by
  rcases h with rfl | ⟨_, rfl⟩ <;> rfl

namespace Value

theorem IsTooLong.isOwn {e : Fault} {short : Bool} (h : IsTooLong e short) : e.isOwn = true := by
  rw [h.1]
  rfl

theorem iterate_error_isOwn {v : Value} {e : Fault} (h : v.iterate = .error e) :
    e.isOwn = true := by
  unfold iterate at h
  split at h
  · cases h
  · split at h
    all_goals first
      | cases h; rfl
      | exact nomatch h

theorem anyFits_error_isOwn {α : Type} {read? : Value → Option α} {refuse : Value → Fault}
    {fits : α → Bool} (hrefuse : ∀ v, (refuse v).isOwn = true) {e : Fault} :
    ∀ {items : List Value}, anyFits read? refuse fits items = .error e → e.isOwn = true
  | [], h => by cases h
  | v :: rest, h => by
    unfold anyFits at h
    split at h
    · cases h
      exact hrefuse v
    · split at h
      · cases h
      · exact anyFits_error_isOwn hrefuse h

theorem fitsAffix_error_isOwn {α : Type} {operation wanted : String} {read? : Value → Option α}
    {refuse : Value → Fault} {fits : α → Bool} (hrefuse : ∀ v, (refuse v).isOwn = true)
    {affix : Value} {e : Fault}
    (h : fitsAffix operation wanted read? refuse fits affix = .error e) :
    e.isOwn = true := by
  unfold fitsAffix at h
  split at h
  · cases h
  · exact anyFits_error_isOwn hrefuse h
  · cases h
    rfl

theorem hasAffix_error_isOwn {atStart : Bool} {v affix : Value} {e : Fault}
    (h : hasAffix atStart v affix = .error e) : e.isOwn = true := by
  unfold hasAffix at h
  simp only at h
  split at h
  · exact fitsAffix_error_isOwn (fun _ => rfl) h
  · exact fitsAffix_error_isOwn (fun _ => rfl) h
  · cases h
    unfold typeAffix
    split <;> rfl
  · cases h
    rfl

theorem templateText_error_isOwn {template : Value} {e : Fault}
    (h : template.templateText = .error e) : e.isOwn = true := by
  unfold templateText at h
  split at h <;> cases h <;> rfl

theorem render_error_isOwn {template : Value} {bindings : List (String × Value)} {e : Fault}
    (h : render template bindings = .error e) : e.isOwn = true := by
  rcases Attempt.bind_eq_error.1 h with h | ⟨_, -, h⟩
  · obtain ⟨b, -, h⟩ := Attempt.exists_of_mapM_error h
    rcases Attempt.bind_eq_error.1 h with h | ⟨_, -, h⟩
    · exact (format_error h).isUnwritable.isOwn
    · cases h
  · rcases Attempt.bind_eq_error.1 h with h | ⟨_, -, h⟩
    · exact templateText_error_isOwn h
    · cases h

end Value

theorem Notice.worded_error_isOwn {n : Notice} {count : Nat} {e : Fault}
    (h : n.worded count = .error e) : e.isOwn = true := by
  rcases Attempt.bind_eq_error.1 h with h | ⟨_, -, h⟩
  · rcases Attempt.bind_eq_error.1 h with h | ⟨_, -, h⟩
    · rw [(Trail.text_error h).1]
      rfl
    · cases h
  · exact Value.render_error_isOwn h

theorem Notice.refresh_error_isOwn {n : Notice} {count : Nat} {e : Fault}
    (h : n.refresh count = .error e) : e.isOwn = true := by
  rcases Attempt.bind_eq_error.1 h with h | ⟨_, -, h⟩
  · exact worded_error_isOwn h
  · cases h

theorem Notice.Parts.notice_error_isOwn {p : Notice.Parts} {e : Fault} (h : p.notice = .error e) :
    e.isOwn = true := by
  have hdefault : ∀ {got expected comparison : Value},
      defaultTemplate got expected comparison = .error e → e.isOwn = true := by
    intro got expected comparison h
    unfold defaultTemplate isNegated at h
    rcases Attempt.bind_eq_error.1 h with h | ⟨_, -, h⟩
    · split at h
      · exact Value.hasAffix_error_isOwn h
      · cases h
    · split at h <;> split at h <;> cases h
  have htrail : ∀ {template : Value}, (do
      let trail ← p.path.iterate
      return { template, context := p.context, trail, message := "" } : Except Fault Notice) =
        .error e → e.isOwn = true := by
    intro template h
    rcases Attempt.bind_eq_error.1 h with h | ⟨_, -, h⟩
    · exact Value.iterate_error_isOwn h
    · cases h
  unfold notice at h
  cases ht : p.template? with
  | some v =>
    rw [ht] at h
    exact htrail h
  | none =>
    rw [ht] at h
    rcases Attempt.bind_eq_error.1 h with h | ⟨_, -, h⟩
    · exact hdefault h
    · exact htrail h

namespace Failure

theorem make_error_isOwn {p : Notice.Parts} {children : List Failure} {e : Fault}
    (h : make p children = .error e) : e.isOwn = true := by
  unfold make at h
  rcases Attempt.bind_eq_error.1 h with h | ⟨_, -, h⟩
  · exact Notice.Parts.notice_error_isOwn h
  · rcases Attempt.bind_eq_error.1 h with h | ⟨_, -, h⟩
    · exact Notice.refresh_error_isOwn h
    · cases h

end Failure

/-- Trouble that is the same in deferred work. -/
def Raised.IsSteady (r : Raised) : Prop := r.inWork = r

/-- A call that raises, at once, only what is the same in deferred work. -/
def Call.IsSteady {α : Type} (c : Call α) : Prop := ∀ r, c.answer = .raised r → r.IsSteady

namespace Raised

theorem failure_isSteady (f : Failure) : (failure f).IsSteady := rfl

theorem cancelled_isSteady : cancelled.IsSteady := rfl

theorem isSteady_of_isOwn {e : Fault} (h : e.isOwn = true) : (fault e).IsSteady := by
  cases e with
  | raised name text => cases h
  | _ => rfl

theorem ofFailure_isSteady {x : Except Fault Failure} (h : ∀ e, x = .error e → e.isOwn = true) :
    (ofFailure x).IsSteady := by
  cases x with
  | ok f => rfl
  | error e => exact isSteady_of_isOwn (h e rfl)

theorem fail_isSteady (p : Notice.Parts) : (fail p).IsSteady :=
  ofFailure_isSteady fun _ => Failure.make_error_isOwn

theorem promote_isSteady (got comparison : Value) (r : Raised) :
    (r.promote got comparison).IsSteady := by
  unfold promote
  split
  · exact failure_isSteady _
  · exact cancelled_isSteady
  · exact fail_isSteady _

end Raised

/-! ## Both bodies in one -/

namespace Call

variable {α β : Type}

/-- Goes on with what was raised, at once or when it is. -/
def recover (c : Call α) (f : Raised → Call α) : Call α :=
  match c.answer with
  | .returned a => ⟨c.events, .returned a⟩
  | .raised r => (f r).after c.events
  | .promised handles p => ⟨c.events, .promised handles (p.recover fun r => (f r).toPromise)⟩

/-- Replaces what is raised, at once or later. -/
def mapRaised (f : Raised → Raised) (c : Call α) : Call α := c.recover fun r => raised (f r)

@[simp] theorem after_nil (c : Call α) : c.after [] = c := rfl

theorem raised_after (events : List Event) (r : Raised) :
    (raised r : Call α).after events = ⟨events, .raised r⟩ := by
  rw [after, raised, List.append_nil]

theorem toPromise_raised (r : Raised) : (raised r : Call α).toPromise = Promise.raised r := rfl

theorem IsSteady.awaited_eq {c : Call α} (h : c.IsSteady) : c.awaited = c.toPromise := by
  obtain ⟨events, answer⟩ := c
  cases answer with
  | raised r =>
    have hr : r.inWork = r := h r rfl
    simp only [awaited, inWork, hr]
  | returned a => rfl
  | promised handles p => rfl

theorem isSteady_returned (a : α) : (returned a).IsSteady := nofun

theorem isSteady_raised {r : Raised} (h : r.IsSteady) :
    (raised r : Call α).IsSteady := fun r' hr => by
  cases hr
  exact h

/-- A call that goes on with a function that is the same in deferred work goes on with it in one
way. -/
theorem proceed_eq_next {c : Call α} {f : α → Call β} (h : ∀ a, (f a).IsSteady) :
    c.proceed f = c.next f := by
  have hf : (fun a => (f a).awaited) = fun a => (f a).toPromise := funext fun a => (h a).awaited_eq
  unfold proceed next
  cases c.answer with
  | promised handles p => simp only [hf]
  | _ => rfl

/-! ## Where a call is made -/

/-- The call as it is seen where it is made: in deferred work, or at once. -/
def seen (late : Bool) (c : Call α) : Call α := if late then c.inWork else c

/-- A call goes on with what is seen of the next one from where it is made. -/
theorem proceed_eq (c : Call α) (f : α → Call β) :
    c.proceed f = c.next fun a => (f a).seen c.isPromised := by
  obtain ⟨events, answer⟩ := c
  cases answer <;> rfl

end Call

namespace Program

variable {p q : Program} {args : List Value}

/-- What is raised is caught in one way. -/
theorem guarded_eq (p : Program) (comparison : Value) (args : List Value) :
    p.guarded comparison args = (p args).mapRaised
      (Raised.promote (firstArgument args) comparison) := by
  unfold guarded Call.mapRaised Call.recover
  obtain ⟨events, answer⟩ := p args
  cases answer with
  | returned v => rfl
  | raised r =>
    refine Eq.trans ?_ (Call.raised_after events _).symm
    cases r <;> rfl
  | promised handles output =>
    have hbody : awaitGuarded (firstArgument args) comparison output =
        output.recover fun r =>
          (Call.raised (r.promote (firstArgument args) comparison)).toPromise := by
      unfold awaitGuarded
      congr 1
      funext r
      cases r <;> rfl
    simp only [hbody]

theorem guarded_isSteady (p : Program) (comparison : Value) (args : List Value) :
    (p.guarded comparison args).IsSteady := by
  intro r hr
  rw [guarded_eq, Call.mapRaised, Call.recover] at hr
  cases ha : (p args).answer with
  | returned v => simp [ha] at hr
  | promised handles output => simp [ha] at hr
  | raised r' =>
    simp only [ha, Call.after, Call.raised, Answer.raised.injEq] at hr
    exact hr ▸ Raised.promote_isSteady _ _ _

theorem andThen_eq (p q : Program) (args : List Value) :
    p.andThen q args = (p args).next fun v => (q.guarded (.text "transform")) [v] :=
  Call.proceed_eq_next fun v => q.guarded_isSteady _ [v]

theorem satisfying_eq (predicate : Program) (message expected : Value) (comparison : String)
    (args : List Value) :
    predicate.satisfying message expected comparison args =
      ((predicate.guarded (.text comparison)) [firstArgument args]).next fun verdict =>
        if verdict.isTruthy then Call.returned (firstArgument args)
        else Call.raised (refuted message expected comparison (firstArgument args)) := by
  refine Call.proceed_eq_next fun verdict => ?_
  split
  · exact Call.isSteady_returned _
  · exact Call.isSteady_raised (Raised.fail_isSteady _)

/-! ## Missing input -/

/-- What becomes of trouble with a value that is present, or that was put in place of a missing
one. -/
def optionalTrouble (substituted : Bool) (v : Value) : Raised → Raised
  | .cancelled => .cancelled
  | .failure f => if substituted then unfitDefault v f else .failure f
  | _ => unchecked v

theorem unfitDefault_isSteady (v : Value) (f : Failure) : (unfitDefault v f).IsSteady :=
  Raised.ofFailure_isSteady fun _ => Failure.make_error_isOwn

theorem unchecked_isSteady (v : Value) : (unchecked v).IsSteady := Raised.fail_isSteady _

theorem optionalTrouble_isSteady (substituted : Bool) (v : Value) (r : Raised) :
    (optionalTrouble substituted v r).IsSteady := by
  cases r with
  | cancelled => exact Raised.cancelled_isSteady
  | failure f =>
    cases substituted with
    | true => exact unfitDefault_isSteady v f
    | false => exact Raised.failure_isSteady f
  | setup e => exact unchecked_isSteady v
  | fault e => exact unchecked_isSteady v

theorem ifPresent_eq (p : Program) (substituted : Bool) (args : List Value) :
    p.ifPresent substituted args =
      if (firstArgument args).isNullish then Call.returned (firstArgument args)
      else (p args).mapRaised (optionalTrouble substituted (firstArgument args)) := by
  unfold ifPresent
  simp only
  split
  · rfl
  · unfold Call.mapRaised Call.recover
    obtain ⟨events, answer⟩ := p args
    cases answer with
    | returned v => rfl
    | raised r =>
      refine Eq.trans ?_ (Call.raised_after events _).symm
      cases r <;> rfl
    | promised handles output =>
      have hbody : awaitPresent substituted (firstArgument args) output =
          output.recover fun r =>
            (Call.raised (optionalTrouble substituted (firstArgument args) r)).toPromise := by
        unfold awaitPresent
        congr 1
        funext r
        cases r <;> rfl
      simp only [hbody]

theorem ifPresent_isSteady (p : Program) (substituted : Bool) (args : List Value) :
    (p.ifPresent substituted args).IsSteady := by
  intro r hr
  rw [ifPresent_eq] at hr
  split at hr
  · cases hr
  · rw [Call.mapRaised, Call.recover] at hr
    cases ha : (p args).answer with
    | returned v => simp [ha] at hr
    | promised handles output => simp [ha] at hr
    | raised r' =>
      simp only [ha, Call.after, Call.raised, Answer.raised.injEq] at hr
      exact hr ▸ optionalTrouble_isSteady _ _ _

/-- Whether the default is there or promised, it takes the place of what is missing. -/
theorem optional_produced {f : Program} (h : (firstArgument args).isNullish = true) :
    p.optional (.produced f) args =
      ((f []).mapRaised (unproduced (firstArgument args))).next fun v =>
        p.ifPresent true (v :: args.tail) := by
  have hwaits : ∀ output : Promise Value, p.awaitProduced (firstArgument args) args.tail output =
      (output.recover fun r => (Call.raised (unproduced (firstArgument args) r)).toPromise).next
        fun v =>
        (p.ifPresent true (v :: args.tail)).toPromise := by
    intro output
    unfold awaitProduced
    congr 1
    funext v
    exact (p.ifPresent_isSteady true _).awaited_eq
  unfold optional Call.mapRaised Call.recover Call.next
  simp only [h, Bool.not_true, Bool.false_eq_true, ↓reduceIte]
  obtain ⟨events, answer⟩ := f []
  cases answer with
  | returned v => rfl
  | raised r => simp [Call.after, Call.raised]
  | promised handles output => simp only [hwaits]

theorem optional_present {s : Substitute} (h : (firstArgument args).isNullish = false) :
    p.optional s args = p.ifPresent false args := by
  simp only [optional, h, Bool.not_false, ↓reduceIte]

/-! ## Choice -/

/-- The work of a choice is the choice, as it is seen from deferred work. -/
theorem awaitFirst_eq (message v : Value) : ∀ (ps : List Program) (failures : List Failure),
    awaitFirst message v failures ps = (firstOf message v failures ps).toPromise
  | [], _ => rfl
  | p :: rest, failures => by
    unfold awaitFirst firstOf
    obtain ⟨events, answer⟩ := p [v]
    cases answer with
    | returned u => rfl
    | raised r =>
      simp only [Call.toPromise, Promise.recover]
      split
      · next f hf =>
        simp only [awaitFirst_eq message v rest, Work.ofEvents_append, Call.after]
        generalize firstOf message v (failures ++ [f]) rest = c
        obtain ⟨more, answer⟩ := c
        cases answer <;> simp only [Call.toPromise, Work.ofEvents_ofEvents]
      · simp only [Promise.raised, Work.append_done]
    | promised handles pending =>
      simp only [Call.toPromise, Promise.recover, awaitRest]
      cases pending.outcome with
      | ok u => rfl
      | error r =>
        simp only [Work.append_ofEvents]

/-- An alternative that fails, at once or later, gives way to those behind it. -/
theorem firstOf_cons (message v : Value) (failures : List Failure) (p : Program)
    (rest : List Program) :
    firstOf message v failures (p :: rest) =
      (p [v]).recover fun r =>
        match r.promote v (.text "union") with
        | .failure f => firstOf message v (failures ++ [f]) rest
        | r => Call.raised r := by
  rw [firstOf, Call.recover]
  obtain ⟨events, answer⟩ := p [v]
  cases answer with
  | returned u => rfl
  | raised r =>
    simp only
    cases r.promote v (.text "union") <;> simp [Call.after, Call.raised]
  | promised handles pending =>
    have hbody : awaitRest message v pending failures rest = pending.recover fun r =>
        (match r.promote v (.text "union") with
          | .failure f => firstOf message v (failures ++ [f]) rest
          | r => Call.raised r).toPromise := by
      unfold awaitRest
      congr 1
      funext r
      cases r.promote v (.text "union") <;> simp only [awaitFirst_eq, Call.toPromise_raised]
    simp only [hbody]

/-! ## Paths -/

theorem inside_eq (path : List Value) (p : Program) (args : List Value) :
    p.inside path args = (p args).mapRaised fun r =>
      match r with
      | .failure f => Raised.ofFailure (f.inside path)
      | r => r := by
  unfold inside Call.mapRaised Call.recover
  obtain ⟨events, answer⟩ := p args
  cases answer with
  | returned v => rfl
  | raised r => cases r <;> simp [Call.after, Call.raised]
  | promised handles output =>
    have hbody : awaitInside path output = output.recover fun r =>
        (Call.raised (match r with
          | .failure f => Raised.ofFailure (f.inside path)
          | r => r)).toPromise := by
      unfold awaitInside
      congr 1
      funext r
      cases r <;> rfl
    simp only [hbody]

end Program

end Attest
