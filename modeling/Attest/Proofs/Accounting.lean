import Attest.Proofs.Outcome
import Attest.Proofs.Schedule

/-!
# Promises accounted for

What becomes of the promises that user functions hand out. A call that has come back has begun none
of them; it waits for all of them if it promises its own answer, and there are none if it does not.
The work behind a promised answer keeps every promise, those it was made for and those it meets on
its way.

* `Settles`: every promise is begun and kept, and none is dropped.
* `Call.Accounted`: kept by going on with an answer or with what was raised.
* `collect_accounted`, `collect_settles_iff`: a composite keeps it unless an entry raises at once
  what nothing catches; then the promises of the entries before it are left over.
-/

namespace Attest

namespace Event

def started? : Event → Option Handle
  | started h => some h
  | _ => none

def ended? : Event → Option Handle
  | ended h => some h
  | _ => none

def closed? : Event → Option Handle
  | closed h => some h
  | _ => none

end Event

/-! ## Events -/

/-- The promises that user functions hand out, call by call. -/
def handedOut (events : List Event) : List Handle := events.filterMap (·.promised?)

/-- The promises on which work begins. -/
def begun (events : List Event) : List Handle := events.filterMap (·.started?)

/-- The promises that are worked on to the end. -/
def kept (events : List Event) : List Handle := events.filterMap (·.ended?)

/-- The promises that are dropped before any work on them. -/
def dropped (events : List Event) : List Handle := events.filterMap (·.closed?)

section
variable (events events' : List Event)

@[simp] theorem handedOut_append :
    handedOut (events ++ events') = handedOut events ++ handedOut events' :=
  List.filterMap_append

@[simp] theorem begun_append : begun (events ++ events') = begun events ++ begun events' :=
  List.filterMap_append

@[simp] theorem kept_append : kept (events ++ events') = kept events ++ kept events' :=
  List.filterMap_append

@[simp] theorem dropped_append : dropped (events ++ events') = dropped events ++ dropped events' :=
  List.filterMap_append

end

theorem mem_handedOut {events : List Event} {h : Handle} :
    h ∈ handedOut events ↔ .called h ∈ events ∧ h.isPromise = true := by
  simp only [handedOut, List.mem_filterMap]
  constructor
  · rintro ⟨e, he, hh⟩
    cases e with
    | called g =>
      simp only [Event.promised?, Option.ite_none_right_eq_some, Option.some.injEq] at hh
      obtain ⟨hg, rfl⟩ := hh
      exact ⟨he, hg⟩
    | started | ended | closed | logged => cases hh
  · rintro ⟨he, hh⟩
    exact ⟨_, he, if_pos hh⟩

/-- Events in which nothing becomes of any promise, though some may be handed out. -/
structure Untouched (events : List Event) : Prop where
  begun : begun events = []
  kept : kept events = []
  dropped : dropped events = []

theorem Untouched.nil : Untouched [] := ⟨rfl, rfl, rfl⟩

theorem Untouched.append {events events' : List Event} (h : Untouched events)
    (h' : Untouched events') : Untouched (events ++ events') where
  begun := by simp [h.begun, h'.begun]
  kept := by simp [h.kept, h'.kept]
  dropped := by simp [h.dropped, h'.dropped]

/-- Events in which all promises, those open before and those handed out, are begun and kept, each
as often as there is a call that made it, and none is dropped. -/
structure Settles (before : List Handle) (events : List Event) : Prop where
  begun : (begun events).Perm (before ++ handedOut events)
  kept : (kept events).Perm (before ++ handedOut events)
  dropped : dropped events = []

namespace Settles

variable {before before' : List Handle} {events events' : List Event}

theorem nil : Settles [] [] := ⟨.nil, .nil, rfl⟩

theorem of_perm (h : Settles before events) (hp : events.Perm events') :
    Settles before events' where
  begun := (hp.filterMap _).symm.trans (h.begun.trans ((hp.filterMap _).append_left before))
  kept := (hp.filterMap _).symm.trans (h.kept.trans ((hp.filterMap _).append_left before))
  dropped := List.perm_nil.1 ((hp.filterMap Event.closed?).symm.trans (.of_eq h.dropped))

/-- Two accounts that are both settled are settled together. -/
theorem append (h : Settles before events) (h' : Settles before' events') :
    Settles (before ++ before') (events ++ events') where
  begun := by
    have := List.perm_iff_count.1 h.begun
    have := List.perm_iff_count.1 h'.begun
    refine List.perm_iff_count.2 fun a => ?_
    simp only [begun_append, handedOut_append, List.count_append] at *
    grind
  kept := by
    have := List.perm_iff_count.1 h.kept
    have := List.perm_iff_count.1 h'.kept
    refine List.perm_iff_count.2 fun a => ?_
    simp only [kept_append, handedOut_append, List.count_append] at *
    grind
  dropped := by simp [h.dropped, h'.dropped]

theorem next (h : Settles before events) (h' : Settles [] events') :
    Settles before (events ++ events') := by
  simpa using h.append h'

/-- What was handed out is settled by what happens next. -/
theorem opened (h : Settles (handedOut events) events') (hu : Untouched events) :
    Settles [] (events ++ events') where
  begun := by simpa [hu.begun] using h.begun
  kept := by simpa [hu.kept] using h.kept
  dropped := by simpa [hu.dropped] using h.dropped

end Settles

/-- Events in which all promises that are handed out are dropped, with no work done on any. -/
structure Drops (events : List Event) : Prop where
  begun : begun events = []
  kept : kept events = []
  dropped : dropped events = handedOut events

/-- Dropping promises is all that becomes of them, and hands out no new ones. -/
theorem drops_map_closed (handles : List Handle) :
    handedOut (handles.map .closed) = [] ∧ begun (handles.map .closed) = [] ∧
      kept (handles.map .closed) = [] ∧ dropped (handles.map .closed) = handles := by
  induction handles with
  | nil => exact ⟨rfl, rfl, rfl, rfl⟩
  | cons h rest ih =>
    obtain ⟨hout, hbegun, hkept, hdropped⟩ := ih
    exact ⟨hout, hbegun, hkept, congrArg (h :: ·) hdropped⟩

/-- Where nothing becomes of any promise, all is settled if there is none. -/
theorem Untouched.settles_iff {events : List Event} (h : Untouched events) :
    Settles [] events ↔ handedOut events = [] where
  mp hs := by simpa [h.begun] using hs.begun
  mpr hn := ⟨by simp [h.begun, hn], by simp [h.kept, hn], h.dropped⟩

/-! ## The number of promises left open -/

theorem length_settled : ∀ events : List Event,
    (events.filterMap (·.settled?)).length = (kept events).length + (dropped events).length
  | [] => rfl
  | .called _ :: rest | .started _ :: rest | .logged _ :: rest => length_settled rest
  | .ended _ :: rest => (congrArg (· + 1) (length_settled rest)).trans (Nat.add_right_comm _ _ _)
  | .closed _ :: rest => congrArg (· + 1) (length_settled rest)

theorem Settles.unsettled_eq_zero {events : List Event} (h : Settles [] events) :
    unsettled events = 0 := by
  have hkept : (Attest.kept events).length = promises events := h.kept.length_eq
  rw [unsettled, length_settled, h.dropped, hkept]
  simp

theorem Drops.unsettled_eq_zero {events : List Event} (h : Drops events) :
    unsettled events = 0 := by
  have hdropped : (Attest.dropped events).length = promises events := congrArg List.length h.dropped
  rw [unsettled, length_settled, h.kept, hdropped]
  simp

/-! ## Calls -/

namespace Call

variable {α β : Type}

/-- The promises that wait inside a call. -/
def handles (c : Call α) : List Handle :=
  match c.answer with
  | .promised handles _ => handles
  | _ => []

theorem handedOut_discard (c : Call α) : handedOut c.discard = handedOut c.events := by
  unfold discard
  split
  · rw [handedOut_append, (drops_map_closed _).1, List.append_nil]
  · rfl

/-- What has happened when a call is there at last is what its promise has to do. -/
theorem settle_perm (c : Call α) : c.settle.1.Perm c.toPromise.work.events := by
  unfold settle toPromise
  cases c.answer with
  | returned a | raised r => simp [Work.events_ofEvents, Work.events]
  | promised handles p =>
    simp only [Work.events_ofEvents]
    exact p.work.schedule_perm.append_left c.events

/-- A call that waits for just the promises that were handed out: for some if it promises its own
answer, and then the work behind it settles them; for none if it does not. -/
structure Accounted (c : Call α) : Prop where
  untouched : Untouched c.events
  handedOut : handedOut c.events = c.handles
  promised :
    ∀ handles p, c.answer = .promised handles p → handles ≠ [] ∧ Settles handles p.work.events

namespace Accounted

variable {c : Call α}

theorem returned (a : α) : (Call.returned a).Accounted := ⟨.nil, rfl, fun _ _ h => by cases h⟩

theorem raised (r : Raised) :
    (Call.raised r : Call α).Accounted := ⟨.nil, rfl, fun _ _ h => by cases h⟩

theorem ofExcept : ∀ x : Except Raised α, (Call.ofExcept x).Accounted
  | .ok a => returned a
  | .error r => raised r

theorem after {events : List Event} (h : c.Accounted) (hu : Untouched events)
    (hn : Attest.handedOut events = []) : (c.after events).Accounted where
  untouched := hu.append h.untouched
  handedOut := by
    have hc := h.handedOut
    simp only [Call.after, handedOut_append, hn, List.nil_append, hc]
    rfl
  promised := h.promised

/-- A call that is made and waited for settles all that it hands out. -/
theorem toPromise_settles (h : c.Accounted) : Settles [] c.toPromise.work.events := by
  obtain ⟨events, answer⟩ := c
  have hout := h.handedOut
  cases answer with
  | returned a | raised r =>
    simp only [toPromise, Work.events_ofEvents, Work.events, List.append_nil]
    exact h.untouched.settles_iff.2 hout
  | promised handles p =>
    obtain ⟨-, hs⟩ := h.promised handles p rfl
    simp only [toPromise, Work.events_ofEvents]
    exact Settles.opened (hout.symm ▸ hs) h.untouched

/-- Whatever comes of a call in the end, all its promises are settled then. -/
theorem settle_settles (h : c.Accounted) : Settles [] c.settle.1 :=
  h.toPromise_settles.of_perm c.settle_perm.symm

theorem next {f : α → Call β} (h : c.Accounted) (hf : ∀ a, c.outcome = .ok a → (f a).Accounted) :
    (c.next f).Accounted := by
  obtain ⟨events, answer⟩ := c
  cases answer with
  | returned a => exact (hf a rfl).after h.untouched h.handedOut
  | raised r => exact ⟨h.untouched, h.handedOut, fun _ _ heq => by cases heq⟩
  | promised handles p =>
    obtain ⟨hne, hs⟩ := h.promised handles p rfl
    refine ⟨h.untouched, h.handedOut, ?_⟩
    rintro handles' p' ⟨⟩
    refine ⟨hne, ?_⟩
    obtain ⟨work, outcome⟩ := p
    cases outcome with
    | ok a =>
      simp only [Promise.next, Work.events_append]
      exact hs.next (hf a rfl).toPromise_settles
    | error r => exact hs

theorem recover {f : Raised → Call α} (h : c.Accounted)
    (hf : ∀ r, c.outcome = .error r → (f r).Accounted) : (c.recover f).Accounted := by
  obtain ⟨events, answer⟩ := c
  cases answer with
  | returned a => exact ⟨h.untouched, h.handedOut, fun _ _ heq => by cases heq⟩
  | raised r => exact (hf r rfl).after h.untouched h.handedOut
  | promised handles p =>
    obtain ⟨hne, hs⟩ := h.promised handles p rfl
    refine ⟨h.untouched, h.handedOut, ?_⟩
    rintro handles' p' ⟨⟩
    refine ⟨hne, ?_⟩
    obtain ⟨work, outcome⟩ := p
    cases outcome with
    | ok a => exact hs
    | error r =>
      simp only [Promise.recover, Work.events_append]
      exact hs.next (hf r rfl).toPromise_settles

theorem seen (h : c.Accounted) (late : Bool) : (c.seen late).Accounted := by
  obtain ⟨events, answer⟩ := c
  cases late with
  | false => exact h
  | true =>
    cases answer with
    | returned a => exact h
    | raised r => exact ⟨h.untouched, h.handedOut, fun _ _ heq => by cases heq⟩
    | promised handles p => exact h

theorem proceed {f : α → Call β} (h : c.Accounted) (hf : ∀ a, c.outcome = .ok a → (f a).Accounted) :
    (c.proceed f).Accounted := by
  rw [proceed_eq]
  exact h.next fun a ha => (hf a ha).seen _

/-- A call that is not wanted drops all that it was promised. -/
theorem discard_drops (h : c.Accounted) : Drops c.discard := by
  obtain ⟨events, answer⟩ := c
  have hout := h.handedOut
  have hu := h.untouched
  cases answer with
  | returned a | raised r => exact ⟨hu.begun, hu.kept, hu.dropped.trans hout.symm⟩
  | promised handles p =>
    simp only [Call.handles] at hout hu
    obtain ⟨-, hbegun, hkept, hdropped⟩ := drops_map_closed handles
    constructor
    · simp only [discard, begun_append, hu.begun, hbegun, List.nil_append]
    · simp only [discard, kept_append, hu.kept, hkept, List.nil_append]
    · rw [handedOut_discard, hout]
      simp only [discard, dropped_append, hu.dropped, hdropped, List.nil_append]

theorem isPromised_iff (h : c.Accounted) :
    c.isPromised = true ↔ Attest.handedOut c.events ≠ [] := by
  have hout := h.handedOut
  rw [hout]
  unfold isPromised handles
  cases hc : c.answer with
  | returned a | raised r => simp
  | promised handles p => simpa using (h.promised handles p hc).1

end Accounted

end Call

theorem World.call_accounted (w : World) (f : FunctionId) (args : List Value) :
    (w.call f args).Accounted := by
  unfold World.call
  simp only
  cases (w.reply f args).pauses with
  | none => exact (Call.Accounted.ofExcept _).after ⟨rfl, rfl, rfl⟩ rfl
  | some count =>
    refine ⟨⟨rfl, rfl, rfl⟩, rfl, ?_⟩
    rintro handles p ⟨⟩
    refine ⟨by simp, ?_⟩
    simp only [Work.events, Work.events_pauses]
    exact ⟨.refl _, .refl _, rfl⟩

/-! ## Entries -/

/-- What is known about an entry, with the promises in it accounted for. -/
def Finding.IsAccounted : Finding → Prop
  | .awaited _ handles p => handles ≠ [] ∧ Settles handles p.work.events
  | .accepted _ | .rejected _ => True

/-- An entry whose judgement leaves nothing open. -/
def Entry.IsAccounted : Entry → Prop
  | .judged _ item p => (p [item]).Accounted
  | .refused _ _ | .kept _ _ => True

theorem Finding.isAccounted_of_ofRaised {item : Value} {r : Raised} {f : Finding}
    (h : Finding.ofRaised item r = .ok f) : f.handles = [] ∧ f.IsAccounted := by
  cases f with
  | accepted | rejected => exact ⟨rfl, trivial⟩
  | awaited v handles p => exact absurd h Finding.ofRaised_ne_awaited

namespace Entry

theorem find_untouched {e : Entry} (h : e.IsAccounted) : Untouched e.find.events := by
  match e, h with
  | .judged segment item p, h =>
    have hu := h.untouched
    simp only [find]
    split
    · exact hu
    · split <;> exact hu
    · exact hu
  | .refused _ (.ok _), _ | .refused _ (.error _), _ | .kept _ _, _ => exact .nil

/-- The promises that one entry hands out wait in what is found. -/
theorem find_handedOut {e : Entry} (h : e.IsAccounted) {found : Value × Finding}
    (hf : e.find.answer = .returned found) :
    handedOut e.find.events = found.2.handles ∧ found.2.IsAccounted := by
  match e, h with
  | .judged segment item p, h =>
    have hout := h.handedOut
    have hpromised := h.promised
    simp only [find, Call.handles] at hf hout ⊢
    cases ha : (p [item]).answer with
    | returned v =>
      rw [ha] at hf hout
      cases hf
      exact ⟨hout, trivial⟩
    | raised r =>
      rw [ha] at hf hout
      simp only at hf hout ⊢
      cases hx : Finding.ofRaised item r with
      | ok f =>
        rw [hx] at hf
        cases hf
        obtain ⟨hnone, hf⟩ := Finding.isAccounted_of_ofRaised hx
        exact ⟨hout.trans hnone.symm, hf⟩
      | error r' =>
        rw [hx] at hf
        cases hf
    | promised handles q =>
      rw [ha] at hf hout
      cases hf
      exact ⟨hout, hpromised handles q ha⟩
  | .refused segment (.ok f), _ | .kept segment item, _ =>
    cases hf
    exact ⟨rfl, trivial⟩
  | .refused segment (.error e), _ => cases hf

/-- An entry that raises at once has handed out nothing. -/
theorem find_handedOut_of_raised {e : Entry} (h : e.IsAccounted) {r : Raised}
    (hr : e.find.answer = .raised r) : handedOut e.find.events = [] := by
  match e, h with
  | .judged segment item p, h =>
    have hout := h.handedOut
    simp only [find, Call.handles] at hr hout ⊢
    cases ha : (p [item]).answer with
    | returned v =>
      rw [ha] at hr
      cases hr
    | raised r' =>
      rw [ha] at hout
      simp only at hout ⊢
      split <;> exact hout
    | promised handles q =>
      rw [ha] at hr
      cases hr
  | .refused segment (.ok f), _ | .kept segment item, _ => cases hr
  | .refused segment (.error e), _ => rfl

/-- What comes of the first entry and of the others: all are found, or the others are interrupted,
or the first one interrupts. -/
theorem findAll_cons_cases (e : Entry) (rest : List Entry) :
    (∃ found more, e.find.answer = .returned found ∧ (findAll rest).answer = .returned more ∧
      findAll (e :: rest) = ⟨e.find.events ++ (findAll rest).events, .returned (found :: more)⟩) ∨
    (∃ found r, e.find.answer = .returned found ∧ (findAll rest).answer = .raised r ∧
      findAll (e :: rest) = ⟨e.find.events ++ (findAll rest).events, .raised r⟩) ∨
    ∃ r, e.find.answer = .raised r ∧ findAll (e :: rest) = ⟨e.find.events, .raised r⟩ := by
  rcases Call.answer_of_not_promised e.find_isPromised with ⟨found, he⟩ | ⟨r, he⟩
  · rcases Call.answer_of_not_promised (findAll_isPromised rest) with ⟨more, hrest⟩ | ⟨r, hrest⟩
    · refine .inl ⟨found, more, he, hrest, ?_⟩
      simp [findAll, Call.next, he, hrest, Call.after, Call.returned]
    · refine .inr (.inl ⟨found, r, he, hrest, ?_⟩)
      simp [findAll, Call.next, he, hrest, Call.after]
  · refine .inr (.inr ⟨r, he, ?_⟩)
    simp [findAll, Call.next, he]

theorem findAll_untouched : ∀ {entries : List Entry}, (∀ e ∈ entries, e.IsAccounted) →
    Untouched (findAll entries).events
  | [], _ => .nil
  | e :: rest, h => by
    have hfirst := find_untouched (h e List.mem_cons_self)
    have hrest := findAll_untouched fun e' he' => h e' (List.mem_cons_of_mem e he')
    rcases findAll_cons_cases e rest with ⟨_, _, -, -, heq⟩ | ⟨_, _, -, -, heq⟩ | ⟨_, -, heq⟩
    · rw [heq]
      exact hfirst.append hrest
    · rw [heq]
      exact hfirst.append hrest
    · rw [heq]
      exact hfirst

/-- The promises that the entries hand out wait in what is found, in the order of the entries. -/
theorem findAll_handedOut : ∀ {entries : List Entry} {findings : List (Value × Finding)},
    (∀ e ∈ entries, e.IsAccounted) → (findAll entries).answer = .returned findings →
      handedOut (findAll entries).events = findings.flatMap (·.2.handles) ∧
        ∀ found ∈ findings, found.2.IsAccounted
  | [], findings, _, hf => by
    cases hf
    exact ⟨rfl, by simp⟩
  | e :: rest, findings, h, hf => by
    rcases findAll_cons_cases e rest with ⟨found, more, he, hr, heq⟩ | ⟨_, _, -, -, heq⟩ |
      ⟨_, -, heq⟩
    · obtain ⟨hout, hfound⟩ := find_handedOut (h e List.mem_cons_self) he
      obtain ⟨houts, hmore⟩ :=
        findAll_handedOut (fun e' he' => h e' (List.mem_cons_of_mem e he')) hr
      rw [heq] at hf ⊢
      cases hf
      refine ⟨by rw [handedOut_append, hout, houts, List.flatMap_cons], fun f hmem => ?_⟩
      rcases List.mem_cons.1 hmem with rfl | hmem
      · exact hfound
      · exact hmore f hmem
    · rw [heq] at hf
      cases hf
    · rw [heq] at hf
      cases hf

/-- The judgement of the entries is ended by the first one that raises at once what nothing
catches. -/
theorem findAll_raised : ∀ {entries : List Entry} {r : Raised},
    (findAll entries).answer = .raised r → ∃ before e after findings,
      entries = before ++ e :: after ∧ (findAll before).answer = .returned findings ∧
        e.find.answer = .raised r
  | [], r, hr => by cases hr
  | e :: rest, r, hr => by
    rcases findAll_cons_cases e rest with ⟨_, _, -, -, heq⟩ | ⟨found, r', he, hrest, heq⟩ |
      ⟨r', he, heq⟩
    · rw [heq] at hr
      cases hr
    · rw [heq] at hr
      cases hr
      obtain ⟨before, e', after, findings, rfl, hf, he'⟩ := findAll_raised hrest
      refine ⟨e :: before, e', after, found :: findings, rfl, ?_, he'⟩
      simp [findAll, Call.next, he, hf, Call.after, Call.returned]
    · rw [heq] at hr
      cases hr
      exact ⟨[], e, rest, [], rfl, rfl, he⟩

/-- An entry that raises at once what nothing catches ends the judgement; those after it are not
judged. -/
theorem findAll_interrupted {e : Entry} {r : Raised} (he : e.find.answer = .raised r)
    (after : List Entry) : ∀ {before : List Entry} {findings : List (Value × Finding)},
    (findAll before).answer = .returned findings →
      findAll (before ++ e :: after) = ⟨(findAll before).events ++ e.find.events, .raised r⟩
  | [], _, _ => by simp [findAll, Call.next, he, Call.returned]
  | e' :: before, _, hf => by
    rcases findAll_cons_cases e' before with ⟨found, more, he', hb, heq⟩ | ⟨_, _, -, -, heq⟩ |
      ⟨_, -, heq⟩
    · have ih := findAll_interrupted he after hb
      simp [findAll, Call.next, he', hb, ih, Call.after, Call.returned]
    · rw [heq] at hf
      cases hf
    · rw [heq] at hf
      cases hf

end Entry

/-! ## Composites -/

namespace Composite

/-- Putting the answers together is of no matter to any promise. -/
theorem conclude_untouched (c : Composite) (findings : List (Value × Finding)) :
    Untouched (c.conclude findings).1 ∧ handedOut (c.conclude findings).1 = [] := by
  unfold conclude
  split
  · exact ⟨.nil, rfl⟩
  · split
    · exact ⟨.nil, rfl⟩
    · exact ⟨⟨rfl, rfl, rfl⟩, rfl⟩

/-- The promises found are settled by working on them side by side. -/
theorem tasks_settle : ∀ {findings : List (Value × Finding)},
    (∀ found ∈ findings, found.2.IsAccounted) →
      Settles (findings.flatMap (·.2.handles))
        (Work.eventsOfAll ((findings.filterMap (·.2.promise?)).map (·.work)))
  | [], _ => .nil
  | (segment, f) :: rest, h => by
    have hf := h _ List.mem_cons_self
    have ih := tasks_settle fun found hm => h found (List.mem_cons_of_mem _ hm)
    cases f with
    | accepted | rejected => exact ih
    | awaited item handles p => exact hf.2.append ih

theorem awaiting_settles (c : Composite) {findings : List (Value × Finding)}
    (h : ∀ found ∈ findings, found.2.IsAccounted) :
    Settles (findings.flatMap (·.2.handles)) (c.awaiting findings).work.events := by
  have htasks := tasks_settle h
  unfold awaiting
  simp only
  split
  · exact htasks.next .nil
  · next settled _ =>
    simp only [Work.events, Work.events_ofEvents, List.append_nil]
    obtain ⟨hu, hn⟩ := c.conclude_untouched settled
    exact htasks.next (hu.settles_iff.2 hn)

/-- A composite waits for just the promises of its entries, unless one of them raises at once what
ends the judgement. -/
theorem collect_accounted (c : Composite) {entries : List Entry} {findings : List (Value × Finding)}
    (h : ∀ e ∈ entries, e.IsAccounted) (hf : (Entry.findAll entries).answer = .returned findings) :
    (c.collect entries).Accounted := by
  have hu := Entry.findAll_untouched h
  obtain ⟨hout, hfindings⟩ := Entry.findAll_handedOut h hf
  unfold collect Call.next
  rw [hf]
  simp only
  split
  · next hsome =>
    refine ⟨?_, ?_, ?_⟩
    · simpa [Call.after] using hu
    · simpa [Call.after, Call.handles] using hout
    · rintro handles p ⟨⟩
      refine ⟨?_, c.awaiting_settles hfindings⟩
      obtain ⟨⟨segment, f⟩, hmem, hp⟩ := List.any_eq_true.1 hsome
      cases f with
      | accepted | rejected => cases hp
      | awaited item handles p =>
        have hne := (hfindings _ hmem).1
        intro hnil
        exact hne (List.flatMap_eq_nil_iff.1 hnil _ hmem)
  · next hnone =>
    obtain ⟨hcu, hcn⟩ := c.conclude_untouched findings
    refine ((Call.Accounted.ofExcept _).after hcu hcn).after hu ?_
    rw [hout]
    refine List.flatMap_eq_nil_iff.2 fun found hmem => ?_
    obtain ⟨segment, f⟩ := found
    cases f with
    | accepted | rejected => rfl
    | awaited item handles p =>
      exact absurd (List.any_eq_true.2 ⟨_, hmem, rfl⟩) hnone

/-- A composite of which the judgement is ended at once ends so, and nothing becomes of the promises
that were handed out until then. -/
theorem collect_interrupted (c : Composite) {before : List Entry} {e : Entry} (after : List Entry)
    {findings : List (Value × Finding)} {r : Raised}
    (hf : (Entry.findAll before).answer = .returned findings) (he : e.find.answer = .raised r) :
    c.collect (before ++ e :: after) = ⟨(Entry.findAll before).events ++
      e.find.events, .raised r⟩ := by
  unfold collect Call.next
  rw [Entry.findAll_interrupted he after hf]

/-- Entries that leave nothing open leave open promises behind just where one of them raises at once
what nothing catches, after another one has handed out a promise. -/
theorem collect_settles_iff (c : Composite) {entries : List Entry}
    (h : ∀ e ∈ entries, e.IsAccounted) :
    Settles [] (c.collect entries).settle.1 ↔
      ∀ before e after findings r, entries = before ++ e :: after →
        (Entry.findAll before).answer = .returned findings → e.find.answer = .raised r →
          findings.flatMap (·.2.handles) = [] := by
  -- what is handed out up to an interruption
  have interrupted : ∀ before e after findings r, entries = before ++ e :: after →
      (Entry.findAll before).answer = .returned findings → e.find.answer = .raised r →
        (Settles [] (c.collect entries).settle.1 ↔ findings.flatMap (·.2.handles) = []) := by
    rintro before e after findings r rfl hf he
    have hbefore : ∀ e' ∈ before, e'.IsAccounted := fun e' he' => h e' (List.mem_append_left _ he')
    have hentry := h e (List.mem_append_right _ List.mem_cons_self)
    have hu := (Entry.findAll_untouched hbefore).append (Entry.find_untouched hentry)
    rw [c.collect_interrupted after hf he]
    refine hu.settles_iff.trans ?_
    rw [handedOut_append, (Entry.findAll_handedOut hbefore hf).1,
      Entry.find_handedOut_of_raised hentry he, List.append_nil]
  constructor
  · intro hs before e after findings r hentries hf he
    exact (interrupted before e after findings r hentries hf he).1 hs
  · intro hopen
    rcases Call.answer_of_not_promised (Entry.findAll_isPromised entries) with ⟨findings, hf⟩ |
      ⟨r, hf⟩
    · exact (c.collect_accounted h hf).settle_settles
    · obtain ⟨before, e, after, findings, hentries, hb, he⟩ := Entry.findAll_raised hf
      exact (interrupted before e after findings r hentries hb he).2
        (hopen before e after findings r hentries hb he)

end Composite

end Attest
