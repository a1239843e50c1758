import Attest.Proofs.Outcome
import Attest.Proofs.Turns

/-!
# One after the other

What a work that follows another one does begins when the other is over, forks and all: where
nothing else goes on, the task that reports to nobody has its last turn when no turn of another task
is left. So what happens in a call that goes on with another call is what happens in the one and
then what happens in the other, promised or not.

* `Machine.after_followed`: a machine, and the same machine with more to do in the end.
* `schedule_append`: one work after the other.
* `Call.settle_next`, `Call.settle_recover`: one call after the other.
-/

namespace Attest

namespace Work

/-- Whether a work is over in its first turn. -/
def isBrief : Work → Bool
  | done => true
  | event _ rest => rest.isBrief
  | fork [] rest => rest.isBrief
  | _ => false

/-! ## More to do in the end -/

/-- A task that reports to nobody goes on with another work when it is over. -/
def Task.followed (w : Work) (t : Task) : Task :=
  match t.waiter with
  | none => ⟨t.work.append w, none⟩
  | some _ => t

def Turn.followed (w : Work) : Turn → Turn
  | .run t => .run (t.followed w)
  | .notice join => .notice join

def Join.followed (w : Work) (j : Join) : Join := { j with resume := j.resume.followed w }

/-- Whether a fork still waits and reports to nobody afterwards. -/
def Join.isLoose (j : Join) : Bool := j.missing != 0 && j.resume.waiter.isNone

/-- A turn that reports to some fork is one of a task that it waits for, or a notice to it. -/
theorem Turn.isFor_of_reports {turn : Turn} (h : turn.reports = true) :
    ∃ i, turn.isFor i = true := by
  cases turn with
  | run task => exact (Option.isSome_iff_exists.1 h).imp fun i hi => by simp [isFor, hi]
  | notice join => exact ⟨join, by simp [isFor]⟩

namespace Machine

def followed (w : Work) (m : Machine) : Machine :=
  ⟨m.queue.map (Turn.followed w), m.joins.map (Join.followed w), m.record⟩

variable {m : Machine} {queue : List Turn}

theorem advance_followed_some (w : Work) (join : Nat) : ∀ (u : Work) (m : Machine),
    advance (some join) (m.followed w) u = (advance (some join) m u).followed w
  | done, m => by simp [advance, followed, Turn.followed]
  | event e rest, m => advance_followed_some w join rest { m with record := e :: m.record }
  | pause rest, m => by simp [advance, followed, Turn.followed, Task.followed]
  | fork [] rest, m => advance_followed_some w join rest m
  | fork (t :: ts) rest, m => by
    simp [advance, followed, Turn.followed, Task.followed, Join.followed]

/-- A task with more to do in the end does it in the same turn, if it would have been over. -/
theorem advance_followed_none (w : Work) : ∀ (u : Work) (m : Machine),
    advance none (m.followed w) (u.append w) =
      if u.isBrief then advance none ((advance none m u).followed w) w
      else (advance none m u).followed w
  | done, m => rfl
  | event e rest, m => advance_followed_none w rest { m with record := e :: m.record }
  | pause rest, m => by simp [append, advance, followed, Turn.followed, Task.followed, isBrief]
  | fork [] rest, m => advance_followed_none w rest m
  | fork (t :: ts) rest, m => by
    simp [append, advance, followed, Turn.followed, Task.followed, Join.followed, isBrief]

theorem notify_followed (w : Work) (m : Machine) (join : Nat) :
    (m.followed w).notify join = (m.notify join).followed w := by
  unfold notify
  simp only [followed, List.getElem?_map]
  cases m.joins[join]? with
  | none => rfl
  | some j =>
    simp only [Option.map_some, Join.followed, beq_iff_eq]
    split <;> simp [List.map_set, Join.followed, Turn.followed]

/-- Up to its last turn, a task does the same whether or not it has more to do in the end. -/
theorem step_followed (w : Work) (h : ∀ u queue, m.queue = .run ⟨u, none⟩ :: queue →
      u.isBrief = false) :
    (m.followed w).step = m.step.followed w := by
  obtain ⟨queue, joins, record⟩ := m
  match queue, h with
  | [], _ => rfl
  | .run ⟨u, some join⟩ :: queue, _ => exact advance_followed_some w join u ⟨queue, joins, record⟩
  | .run ⟨u, none⟩ :: queue, h =>
    have hstep := advance_followed_none w u ⟨queue, joins, record⟩
    rw [h u queue rfl, if_neg Bool.false_ne_true] at hstep
    exact hstep
  | .notice join :: queue, _ => exact notify_followed w ⟨queue, joins, record⟩ join

/-! ## The task that reports to nobody -/

/-- How many tasks report to nobody. -/
def loose (m : Machine) :
    Nat := m.queue.countP (fun turn => !turn.reports) + m.joins.countP Join.isLoose

theorem advance_loose (waiter : Option Nat) : ∀ (u : Work) (m : Machine),
    (advance waiter m u).loose = m.loose + if waiter.isNone && !u.isBrief then 1 else 0
  | done, m => by cases waiter <;> simp [advance, loose, isBrief, Turn.reports]
  | event e rest, m => advance_loose waiter rest { m with record := e :: m.record }
  | pause rest, m => by
    cases waiter <;> simp [advance, loose, isBrief, Turn.reports, Nat.add_right_comm]
  | fork [] rest, m => advance_loose waiter rest m
  | fork (t :: ts) rest, m => by
    cases waiter <;> simp [advance, loose, isBrief, Turn.reports, Join.isLoose, List.countP_map,
      Function.comp_def, Nat.add_assoc]

theorem notify_loose {join : Nat} {j : Join} (hj : m.joins[join]? = some j) (hpos : j.missing ≠ 0) :
    (m.notify join).loose = m.loose := by
  obtain ⟨hlt, hget⟩ := List.getElem?_eq_some_iff.1 hj
  have hle := List.boole_getElem_le_countP (p := Join.isLoose) hlt
  have hnow : m.joins[join].isLoose = j.resume.waiter.isNone := by simp [hget, Join.isLoose, hpos]
  rw [hnow] at hle
  simp only [notify, hj, beq_iff_eq]
  split
  · next hone =>
    have hover : Join.isLoose { j with missing := j.missing - 1 } = false := by
      simp [hone, Join.isLoose]
    simp only [loose, List.countP_append, List.countP_set hlt, hnow, hover, List.countP_singleton,
      Turn.reports, Option.not_isSome, Bool.false_eq_true, ↓reduceIte]
    omega
  · next hone =>
    have hstill : Join.isLoose { j with missing := j.missing - 1 } = j.resume.waiter.isNone := by
      have hleft : j.missing - 1 ≠ 0 := by omega
      simp [Join.isLoose, hleft]
    simp only [loose, List.countP_set hlt, hnow, hstill]
    omega

/-- Where one task reports to nobody, one turn leaves it so, unless it is the last one of that
task. -/
theorem step_loose {all : List Event} {fuel : Nat} (hl : Ledger all fuel m.queue m.joins m.record)
    (h : ∀ u queue, m.queue = .run ⟨u, none⟩ :: queue → u.isBrief = false) :
    m.step.loose = m.loose := by
  obtain ⟨queue, joins, record⟩ := m
  match queue, h, hl with
  | [], _, _ => rfl
  | .run ⟨u, some join⟩ :: queue, _, _ =>
    have hstep := advance_loose (some join) u ⟨queue, joins, record⟩
    simpa [step, loose, Turn.reports] using hstep
  | .run ⟨u, none⟩ :: queue, h, _ =>
    have hstep := advance_loose none u ⟨queue, joins, record⟩
    have hu : u.isBrief = false := h u queue rfl
    simp only [step, loose, hu, Turn.reports, List.countP_cons] at hstep ⊢
    simp at hstep ⊢
    omega
  | .notice join :: queue, _, hl =>
    have hlt : join < joins.length := hl.turnsKnown _ List.mem_cons_self join (by simp [Turn.isFor])
    have hj := List.getElem?_eq_getElem hlt
    have hmissing := hl.missing join _ hj
    rw [List.countP_cons_of_pos (by simp [Turn.isFor])] at hmissing
    have hstep := notify_loose (m := ⟨queue, joins, record⟩) hj (by omega)
    simpa [step, loose, Turn.reports] using hstep

/-- Where no fork that still waits reports to nobody, none waits: it would report to one made
earlier. -/
theorem nobody_left {all : List Event} {fuel : Nat} (hl : Ledger all fuel m.queue m.joins m.record)
    (h : ∀ j ∈ m.joins, j.isLoose = false) (k : Nat) :
    ∀ j, m.joins[k]? = some j → j.missing = 0 := by
  induction k using Nat.strongRecOn with
  | _ k ih =>
    intro j hj
    by_contra hmissing
    have hmem := List.mem_of_getElem? hj
    obtain ⟨i, hi⟩ : ∃ i, j.resume.waiter = some i := by
      have hj' := h j hmem
      simpa [Join.isLoose, hmissing, Option.isNone_eq_false_iff, Option.isSome_iff_exists] using hj'
    have hfor : j.isFor i = true := by simp [Join.isFor, hmissing, hi]
    have hlt := hl.joinsKnown k j hj i hfor
    have hknown : i < m.joins.length := Nat.lt_trans hlt (List.getElem?_eq_some_iff.1 hj).1
    have hzero := ih i hlt _ (List.getElem?_eq_getElem hknown)
    have hcount := hl.missing i _ (List.getElem?_eq_getElem hknown)
    have := List.countP_pos_iff.2 ⟨j, hmem, hfor⟩
    omega

/-- When the one task that reports to nobody has a turn, no other turn is left. -/
theorem alone {all : List Event} {fuel : Nat} {u : Work}
    (hl : Ledger all fuel m.queue m.joins m.record) (hq : m.queue = .run ⟨u, none⟩ :: queue)
    (hone : m.loose = 1) : queue = [] := by
  have hone' : queue.countP (fun turn => !turn.reports) + 1 + m.joins.countP Join.isLoose = 1 := by
    simpa [loose, hq, Turn.reports] using hone
  have hqueue : ∀ turn ∈ queue, turn.reports = true := fun turn hturn => by
    have hzero : queue.countP (fun turn => !turn.reports) = 0 := by omega
    simpa using List.countP_eq_zero.1 hzero turn hturn
  have hover := nobody_left hl fun j hj => by
    have hzero : m.joins.countP Join.isLoose = 0 := by omega
    simpa using List.countP_eq_zero.1 hzero j hj
  by_contra hne
  obtain ⟨turn, hturn⟩ := List.exists_mem_of_ne_nil queue hne
  have hmem : turn ∈ m.queue := hq ▸ List.mem_cons_of_mem _ hturn
  obtain ⟨i, hfor⟩ := Turn.isFor_of_reports (hqueue turn hturn)
  have hknown := hl.turnsKnown turn hmem i hfor
  have hzero := hover i _ (List.getElem?_eq_getElem hknown)
  have hcount := hl.missing i _ (List.getElem?_eq_getElem hknown)
  have := List.countP_pos_iff.2 ⟨turn, hmem, hfor⟩
  omega

theorem advance_of_isBrief : ∀ {u : Work} {m : Machine}, u.isBrief = true →
    advance none m u = ⟨m.queue, m.joins, u.firstTurn.reverse ++ m.record⟩
  | done, _, _ => rfl
  | event e rest, m, h => by
    have hrest := advance_of_isBrief (u := rest) (m := { m with record := e :: m.record }) h
    simp only [advance, hrest, firstTurn, List.reverse_cons, List.append_assoc,
      List.singleton_append]
  | fork [] rest, _, h => advance_of_isBrief (u := rest) h

/-- As long as a task is not over, a turn is left. -/
theorem queue_ne_nil {all : List Event} {fuel : Nat} (hl : Ledger all fuel m.queue m.joins m.record)
    (hone : m.loose = 1) : m.queue ≠ [] := by
  intro hq
  rw [hq] at hl
  have hover : m.joins.countP Join.isLoose = 0 := List.countP_eq_zero.2 fun j hj => by
    obtain ⟨k, hk⟩ := List.mem_iff_getElem?.1 hj
    simp [Join.isLoose, hl.nobody_waits m.joins.length k j (by omega) hk]
  simp [loose, hq, hover] at hone

/-- A machine of which one task reports to nobody, and the same machine where that task has more to
do in the end: it does that when all turns are taken that are taken otherwise. -/
theorem after_followed (w : Work) {all : List Event} {fuel : Nat} :
    ∀ {m : Machine}, Ledger all fuel m.queue m.joins m.record → m.loose = 1 → ∃ n joins,
      (m.after n).queue = [] ∧
        (m.followed w).after n = advance none ⟨[], joins, (m.after n).record⟩ w := by
  induction fuel using Nat.strongRecOn with
  | _ fuel ih =>
    intro m hl hone
    obtain ⟨turn, queue, hq⟩ := List.exists_cons_of_ne_nil (queue_ne_nil hl hone)
    by_cases hlast : ∃ u, turn = .run ⟨u, none⟩ ∧ u.isBrief = true
    · obtain ⟨u, rfl, hu⟩ := hlast
      obtain rfl := alone hl hq hone
      obtain ⟨_, joins, record⟩ := m
      obtain rfl : _ = [Turn.run ⟨u, none⟩] := hq
      have hstep : step ⟨[.run ⟨u, none⟩], joins, record⟩ =
        ⟨[], joins, u.firstTurn.reverse ++ record⟩ :=
        advance_of_isBrief hu
      refine ⟨1, joins.map (Join.followed w), ?_⟩
      rw [after_succ, after_zero, after_succ, after_zero, hstep]
      refine ⟨rfl, ?_⟩
      have hnext := advance_followed_none w u ⟨[], joins, record⟩
      rw [if_pos hu, advance_of_isBrief hu] at hnext
      exact hnext
    · have hgoesOn : ∀ u queue, m.queue = .run ⟨u, none⟩ :: queue → u.isBrief = false := by
        intro u queue' hq'
        rw [hq, List.cons.injEq] at hq'
        exact Bool.eq_false_iff.2 fun hu => hlast ⟨u, hq'.1, hu⟩
      obtain ⟨left, rfl, hnext⟩ := step_ledger hq hl
      obtain ⟨n, joins, hdone, hafter⟩ :=
        ih left (Nat.lt_succ_self left) hnext ((step_loose hl hgoesOn).trans hone)
      refine ⟨n + 1, joins, by rw [after_succ, hdone], ?_⟩
      rw [after_succ, step_followed w hgoesOn, hafter, after_succ]

/-! ## Forks that are over -/

end Machine

/-- A task that reports to a fork with a greater number. -/
def Task.shifted (count : Nat) (t : Task) : Task := { t with waiter := t.waiter.map (· + count) }

def Turn.shifted (count : Nat) : Turn → Turn
  | .run t => .run (t.shifted count)
  | .notice join => .notice (join + count)

def Join.shifted (count : Nat) (j : Join) : Join := { j with resume := j.resume.shifted count }

namespace Machine

/-- A machine in which some forks and some events were before. -/
def since (joins : List Join) (record : List Event) (m : Machine) : Machine :=
  ⟨m.queue.map (Turn.shifted joins.length), joins ++ m.joins.map (Join.shifted joins.length),
    m.record ++ record⟩

variable {joins : List Join} {record : List Event}

theorem advance_since (waiter : Option Nat) : ∀ (u : Work) (m : Machine),
    advance (waiter.map (· + joins.length)) (m.since joins record) u =
      (advance waiter m u).since joins record
  | done, m => by cases waiter <;> simp [advance, since, Turn.shifted]
  | event e rest, m => advance_since waiter rest { m with record := e :: m.record }
  | pause rest, m => by simp [advance, since, Turn.shifted, Task.shifted]
  | fork [] rest, m => advance_since waiter rest m
  | fork (t :: ts) rest, m => by
    simp [advance, since, Turn.shifted, Task.shifted, Join.shifted, Nat.add_comm]

theorem notify_since (m : Machine) (join : Nat) :
    (m.since joins record).notify (join + joins.length) = (m.notify join).since joins record := by
  unfold notify
  simp only [since, List.getElem?_append_right (Nat.le_add_left _ _), Nat.add_sub_cancel,
    List.getElem?_map]
  cases m.joins[join]? with
  | none => rfl
  | some j =>
    simp only [Option.map_some, Join.shifted, beq_iff_eq]
    split <;> simp [List.map_set, Join.shifted, Turn.shifted]

theorem step_since (m : Machine) : (m.since joins record).step = m.step.since joins record := by
  obtain ⟨queue, joins', record'⟩ := m
  match queue with
  | [] => rfl
  | .run ⟨u, waiter⟩ :: queue => exact advance_since waiter u ⟨queue, joins', record'⟩
  | .notice join :: queue => exact notify_since ⟨queue, joins', record'⟩ join

theorem after_since (n : Nat) : ∀ m : Machine,
    (m.since joins record).after n = (m.after n).since joins record := by
  induction n with
  | zero => exact fun _ => rfl
  | succ n ih =>
    intro m
    rw [after_succ, step_since, ih, after_succ]

end Machine

/-! ## Works -/

/-- What follows a work happens when all of that has happened. -/
theorem schedule_append (w w' : Work) : (w.append w').schedule = w.schedule ++ w'.schedule := by
  let first : Machine := ⟨[.run ⟨w, none⟩], [], []⟩
  let second : Machine := ⟨[.run ⟨w', none⟩], [], []⟩
  obtain ⟨n, joins, hfirst, hbetween⟩ := Machine.after_followed (m := first) w' (Ledger.start w) rfl
  have hsecond : (second.after (2 * w'.size + 1)).queue = [] := by
    rw [Machine.after_succ', Machine.step, Machine.after_fuel (Ledger.start w')]
    exact Machine.after_fuel (Ledger.start w')
  -- when the first work is over, the second one begins as if there had been nothing before
  have hboth : (Machine.mk [.run ⟨w.append w', none⟩] [] []).after (n + 2 * w'.size) =
      (second.after (2 * w'.size + 1)).since joins (first.after n).record := by
    rw [Machine.after_add]
    have hbegins : advance none ⟨[], joins, (first.after n).record⟩ w' =
        (second.since joins (first.after n).record).step := by
      simp [second, Machine.since, Machine.step, Turn.shifted, Task.shifted]
    have hbetween' : (Machine.mk [.run ⟨w.append w', none⟩] [] []).after n = _ := hbetween
    rw [hbetween', hbegins, ← Machine.after_succ, Machine.after_since]
  rw [schedule_eq hfirst, schedule_eq hsecond,
    schedule_eq (by rw [hboth, Machine.since, hsecond]; rfl), hboth, Machine.since,
    List.reverse_append]

@[simp] theorem schedule_done : done.schedule = [] := rfl

theorem schedule_ofEvents (events : List Event) (w : Work) :
    (ofEvents events w).schedule = events ++ w.schedule := by
  have halone : (ofEvents events done).schedule = events := by
    have hend : (Machine.mk [.run ⟨ofEvents events done, none⟩] [] []).after 1 =
        ⟨[], [], events.reverse ++ []⟩ := advance_ofEvents events ⟨[], [], []⟩
    rw [schedule_eq (by rw [hend]), hend, List.append_nil, List.reverse_reverse]
  rw [← ofEvents_append, schedule_append, halone]

end Work

/-! ## Calls -/

namespace Call

variable {α β : Type}

/-- Waiting for a call is the same within deferred work. -/
theorem toPromise_schedule (c : Call α) : c.toPromise.work.schedule = c.settle.1 := by
  obtain ⟨events, answer⟩ := c
  cases answer <;> simp [toPromise, settle, Work.schedule_ofEvents]

theorem settle_after (events : List Event) (c : Call α) :
    (c.after events).settle = (events ++ c.settle.1, c.settle.2) := by
  obtain ⟨events', answer⟩ := c
  cases answer <;> simp [after, settle]

/-- A call that goes on with its answer: first it is waited for, then what it goes on with. -/
theorem settle_next (c : Call α) (f : α → Call β) :
    (c.next f).settle =
      match c.settle.2 with
      | .ok a => (c.settle.1 ++ (f a).settle.1, (f a).settle.2)
      | .error r => (c.settle.1, .error r) := by
  obtain ⟨events, answer⟩ := c
  cases answer with
  | returned a => exact settle_after events (f a)
  | raised r => rfl
  | promised handles p =>
    obtain ⟨work, outcome⟩ := p
    cases outcome with
    | ok a =>
      have hwork : (work.append (f a).toPromise.work).schedule = work.schedule ++
        (f a).settle.1 := by
        rw [Work.schedule_append, toPromise_schedule]
      exact Prod.ext ((congrArg (events ++ ·) hwork).trans (List.append_assoc ..).symm)
        ((f a).toPromise_outcome.trans (f a).settle_snd.symm)
    | error r => rfl

end Call

end Attest
