import Attest.Work
import Mathlib.Algebra.GroupWithZero.Nat

/-!
# Schedules

Every event of a work happens exactly once when the work is done in turns, whatever pauses and forks
are in it. No task is forgotten, none runs twice, and every fork goes on when the last of its tasks
is done. What the turns keep is a ledger: the events that have happened and those that are still to
come are all there are, and a fork misses just as many tasks as there are turns and forks that
report to it.

* `Ledger`: what a machine has done, what it still has to do, and what its forks wait for.
* `advance_ledger`, `Ledger.notified`: one turn keeps the ledger and lowers its cost.
* `schedule_perm`: the events that happen are those of the work, in some order.
-/

namespace Attest.Work

mutual

/-- The events of a work, those of a fork's tasks one after the other. -/
def events : Work → List Event
  | done => []
  | event e rest => e :: rest.events
  | pause rest => rest.events
  | fork tasks rest => eventsOfAll tasks ++ rest.events

def eventsOfAll : List Work → List Event
  | [] => []
  | w :: rest => w.events ++ eventsOfAll rest

end

theorem eventsOfAll_eq_flatMap : ∀ tasks : List Work, eventsOfAll tasks = tasks.flatMap (·.events)
  | [] => rfl
  | w :: rest => by rw [eventsOfAll, eventsOfAll_eq_flatMap rest, List.flatMap_cons]

theorem events_append : ∀ w w' : Work, (w.append w').events = w.events ++ w'.events
  | done, _ => rfl
  | event e rest, w' => by simp only [append, events, events_append rest w', List.cons_append]
  | pause rest, w' => by simp only [append, events, events_append rest w']
  | fork tasks rest, w' => by simp only [append, events, events_append rest w', List.append_assoc]

theorem events_ofEvents (events : List Event) (w : Work) :
    (ofEvents events w).events = events ++ w.events := by
  induction events with
  | nil => rfl
  | cons e rest ih => exact congrArg (e :: ·) ih

theorem events_pauses (count : Nat) (w : Work) : (pauses count w).events = w.events := by
  induction count with
  | zero => rfl
  | succ count ih => exact ih

theorem sizeAll_eq_sum : ∀ tasks : List Work, sizeAll tasks = (tasks.map size).sum
  | [] => rfl
  | w :: rest => by rw [sizeAll, sizeAll_eq_sum rest, List.map_cons, List.sum_cons]

/-! ## What is still to come -/

namespace Turn

def events : Turn → List Event
  | .run task => task.work.events
  | .notice _ => []

/-- A bound on the turns that come of a turn, itself included. -/
def cost : Turn → Nat
  | .run task => 2 * task.work.size
  | .notice _ => 1

theorem cost_pos : ∀ turn : Turn, 0 < turn.cost
  | .run ⟨done, _⟩ | .run ⟨event _ _, _⟩ | .run ⟨pause _, _⟩ | .run ⟨fork _ _, _⟩ => by
    simp only [cost, size]
    omega
  | .notice _ => Nat.one_pos

/-- Whether a turn ends in a notice to a fork, or is one. -/
def isFor (join : Nat) : Turn → Bool
  | .run task => task.waiter == some join
  | .notice j => j == join

end Turn

namespace Join

/-- The events after a fork that still waits. -/
def events (j : Join) : List Event := if j.missing = 0 then [] else j.resume.work.events

def cost (j : Join) : Nat := if j.missing = 0 then 0 else 2 * j.resume.work.size

/-- Whether a fork still waits and reports to another one afterwards. -/
def isFor (join : Nat) (j : Join) : Bool := j.missing != 0 && j.resume.waiter == some join

end Join

/-- The accounts of a machine at its turns: its events make up `all`, each fork misses those that
report to it, reports go to forks that were made before, and at most `fuel` turns are left. -/
structure Ledger (all : List Event) (fuel : Nat) (turns : List Turn) (joins : List Join)
    (record : List Event) : Prop where
  events : ∀ e, record.count e + (turns.flatMap Turn.events).count e +
    (joins.flatMap Join.events).count e = all.count e
  missing : ∀ (i : Nat) (j : Join), joins[i]? = some j →
    j.missing = turns.countP (Turn.isFor i) + joins.countP (Join.isFor i)
  turnsKnown : ∀ turn ∈ turns, ∀ i, turn.isFor i = true → i < joins.length
  joinsKnown : ∀ (k : Nat) (j : Join), joins[k]? = some j → ∀ i, j.isFor i = true → i < k
  cost : (turns.map Turn.cost).sum + (joins.map Join.cost).sum ≤ fuel

namespace Ledger

variable {all : List Event} {fuel : Nat} {turns queue : List Turn} {joins : List Join}
  {record : List Event}

theorem start (w : Work) : Ledger w.events (2 * w.size) [.run ⟨w, none⟩] [] [] where
  events e := by simp [Turn.events]
  missing i j h := by simp at h
  turnsKnown turn h i hi := by
    rw [List.mem_singleton.1 h] at hi
    cases hi
  joinsKnown k j h := by simp at h
  cost := by simp [Turn.cost]

/-- The order of the turns is of no matter to the accounts. -/
theorem perm {turns' : List Turn} (h : Ledger all fuel turns joins record)
    (hp : turns.Perm turns') :
    Ledger all fuel turns' joins record where
  events e := by rw [← (hp.flatMap_right Turn.events).count_eq e, h.events e]
  missing i j hj := by rw [← hp.countP_eq, h.missing i j hj]
  turnsKnown turn hturn := h.turnsKnown turn (hp.mem_iff.2 hturn)
  joinsKnown := h.joinsKnown
  cost := by
    rw [← (hp.map Turn.cost).sum_nat]
    exact h.cost

/-- The first turn becomes another one of the same report and the same events. -/
theorem replace {t : Turn} (t' : Turn) (spent : Nat)
    (h : Ledger all (fuel + spent) (t :: queue) joins record) (hevents : t'.events = t.events)
    (hfor : ∀ i, t'.isFor i = t.isFor i) (hcost : t'.cost + spent ≤ t.cost) :
    Ledger all fuel (t' :: queue) joins record where
  events e := by
    rw [List.flatMap_cons, hevents, ← List.flatMap_cons]
    exact h.events e
  missing i j hj := by
    rw [h.missing i j hj, List.countP_cons, List.countP_cons, hfor]
  turnsKnown turn hturn i hi := by
    rcases List.mem_cons.1 hturn with rfl | hturn
    · rw [hfor] at hi
      exact h.turnsKnown t List.mem_cons_self i hi
    · exact h.turnsKnown turn (List.mem_cons_of_mem _ hturn) i hi
  joinsKnown := h.joinsKnown
  cost := by
    have := h.cost
    simp only [List.map_cons, List.sum_cons] at this ⊢
    omega

/-- The first turn ends and another one of the same report and the same events queues up. -/
theorem requeue {t : Turn} (t' : Turn) (h : Ledger all (fuel + 1) (t :: queue) joins record)
    (hevents : t'.events = t.events) (hfor : ∀ i, t'.isFor i = t.isFor i)
    (hcost : t'.cost < t.cost) :
    Ledger all fuel (queue ++ [t']) joins record :=
  (h.replace t' 1 hevents hfor hcost).perm (List.perm_append_singleton t' queue).symm

/-- The first turn is over and reports to nobody. -/
theorem drop {t : Turn} (h : Ledger all (fuel + 1) (t :: queue) joins record)
    (hevents : t.events = []) (hfor : ∀ i, t.isFor i = false) (hcost : 0 < t.cost) :
    Ledger all fuel queue joins record where
  events e := by simpa [hevents] using h.events e
  missing i j hj := by simpa [hfor] using h.missing i j hj
  turnsKnown turn hturn := h.turnsKnown turn (List.mem_cons_of_mem _ hturn)
  joinsKnown := h.joinsKnown
  cost := by
    have := h.cost
    simp only [List.map_cons, List.sum_cons] at this
    omega

/-- The first turn makes an event happen. -/
theorem recorded {e : Event} {rest : Work} {waiter : Option Nat}
    (h : Ledger all fuel (.run ⟨.event e rest, waiter⟩ :: queue) joins record) :
    Ledger all fuel (.run ⟨rest, waiter⟩ :: queue) joins (e :: record) where
  events e' := by
    have := h.events e'
    simp only [List.flatMap_cons, Turn.events, Work.events, List.cons_append,
      List.count_cons] at this ⊢
    omega
  missing := h.missing
  turnsKnown turn hturn i hi := by
    rcases List.mem_cons.1 hturn with rfl | hturn
    · exact h.turnsKnown _ List.mem_cons_self i hi
    · exact h.turnsKnown turn (List.mem_cons_of_mem _ hturn) i hi
  joinsKnown := h.joinsKnown
  cost := by
    have := h.cost
    simp only [List.map_cons, List.sum_cons, Turn.cost, size] at this ⊢
    omega

/-- No turn reports to a fork that is still to be made. -/
theorem turn_not_for_next (h : Ledger all fuel turns joins record) {turn : Turn}
    (hturn : turn ∈ turns) : turn.isFor joins.length = false := by
  refine Bool.eq_false_iff.2 fun hi => ?_
  exact Nat.lt_irrefl _ (h.turnsKnown turn hturn _ hi)

/-- No fork reports to one that is still to be made. -/
theorem join_not_for_next (h : Ledger all fuel turns joins record) {j : Join} (hj : j ∈ joins) :
    j.isFor joins.length = false := by
  refine Bool.eq_false_iff.2 fun hi => ?_
  obtain ⟨k, hk⟩ := List.mem_iff_getElem?.1 hj
  have hbefore := h.joinsKnown k j hk _ hi
  have hlt := (List.getElem?_eq_some_iff.1 hk).1
  omega

/-- The tasks of a fork report to it and to no other one. -/
theorem countP_tasks (tasks : List Work) (join i : Nat) :
    (tasks.map fun w => Turn.run ⟨w, some join⟩).countP (Turn.isFor i) =
      if i = join then tasks.length else 0 := by
  split
  · next hi =>
    rw [List.countP_eq_length.2, List.length_map]
    simp [Turn.isFor, hi]
  · next hi =>
    refine List.countP_eq_zero.2 ?_
    simp [Turn.isFor, Ne.symm hi]

theorem sum_cost_tasks (tasks : List Work) (join : Nat) :
    ((tasks.map fun w => Turn.run ⟨w, some join⟩).map Turn.cost).sum =
      2 * (tasks.map size).sum := by
  induction tasks with
  | nil => rfl
  | cons w tasks ih =>
    simp only [List.map_cons, List.sum_cons, ih, Turn.cost]
    omega

section

variable {t : Work} {ts : List Work} {rest : Work} {waiter : Option Nat}

/-- A fork that is made misses its tasks, and the others miss what they did. -/
theorem forked_missing
    (h : Ledger all (fuel + 1) (.run ⟨.fork (t :: ts) rest, waiter⟩ :: queue) joins record)
    {i : Nat} {j : Join} (hj : (joins ++ [⟨ts.length + 1, ⟨rest, waiter⟩⟩])[i]? = some j) :
    j.missing =
      (queue ++ (t :: ts).map fun w => Turn.run ⟨w, some joins.length⟩).countP (Turn.isFor i) +
        (joins ++ [Join.mk (ts.length + 1) ⟨rest, waiter⟩]).countP (Join.isFor i) := by
  have hlast : ([⟨ts.length + 1, ⟨rest, waiter⟩⟩] : List Join).countP (Join.isFor i) =
      if waiter = some i then 1 else 0 := by
    simp [Join.isFor]
  rw [List.countP_append, List.countP_append, countP_tasks, hlast]
  rcases Nat.lt_trichotomy i joins.length with hi | rfl | hi
  · rw [List.getElem?_append_left hi] at hj
    have := h.missing i j hj
    simp only [List.countP_cons, Turn.isFor, beq_iff_eq] at this
    simp only [Nat.ne_of_lt hi, ↓reduceIte]
    omega
  · simp only [List.getElem?_concat_length, Option.some.injEq] at hj
    have hqueue : queue.countP (Turn.isFor joins.length) = 0 :=
      List.countP_eq_zero.2 fun turn hturn => by
        simp [h.turn_not_for_next (List.mem_cons_of_mem _ hturn)]
    have hjoins : joins.countP (Join.isFor joins.length) = 0 :=
      List.countP_eq_zero.2 fun j hj => by simp [h.join_not_for_next hj]
    have hwaiter : waiter ≠ some joins.length := by
      simpa [Turn.isFor] using h.turn_not_for_next List.mem_cons_self
    simp [← hj, hqueue, hjoins, hwaiter]
  · rw [List.getElem?_eq_none (by simpa using Nat.succ_le_of_lt hi)] at hj
    cases hj

theorem forked_turnsKnown
    (h : Ledger all (fuel + 1) (.run ⟨.fork (t :: ts) rest, waiter⟩ :: queue) joins record)
    {turn : Turn} (hturn : turn ∈ queue ++ (t :: ts).map fun w => Turn.run ⟨w, some joins.length⟩)
    {i : Nat} (hi : turn.isFor i = true) : i < joins.length + 1 := by
  rcases List.mem_append.1 hturn with hturn | hturn
  · have := h.turnsKnown turn (List.mem_cons_of_mem _ hturn) i hi
    omega
  · obtain ⟨w, -, rfl⟩ := List.mem_map.1 hturn
    simp only [Turn.isFor, beq_iff_eq, Option.some.injEq] at hi
    omega

theorem forked_joinsKnown
    (h : Ledger all (fuel + 1) (.run ⟨.fork (t :: ts) rest, waiter⟩ :: queue) joins record)
    {k : Nat} {j : Join} (hk : (joins ++ [⟨ts.length + 1, ⟨rest, waiter⟩⟩])[k]? = some j) {i : Nat}
    (hi : j.isFor i = true) : i < k := by
  rcases Nat.lt_trichotomy k joins.length with hlt | rfl | hlt
  · rw [List.getElem?_append_left hlt] at hk
    exact h.joinsKnown k j hk i hi
  · simp only [List.getElem?_concat_length, Option.some.injEq] at hk
    refine h.turnsKnown _ List.mem_cons_self i ?_
    simpa [← hk, Join.isFor, Turn.isFor] using hi
  · rw [List.getElem?_eq_none (by simpa using Nat.succ_le_of_lt hlt)] at hk
    cases hk

/-- The first turn forks: its tasks report to the new fork, and that reports where the turn did. -/
theorem forked
    (h : Ledger all (fuel + 1) (.run ⟨.fork (t :: ts) rest, waiter⟩ :: queue) joins record) :
    Ledger all fuel (queue ++ (t :: ts).map fun w => .run ⟨w, some joins.length⟩)
      (joins ++ [⟨ts.length + 1, ⟨rest, waiter⟩⟩]) record where
  events e := by
    have := h.events e
    simp only [List.flatMap_append, List.flatMap_cons, List.flatMap_nil, List.append_nil,
      List.count_append, Turn.events, Work.events, eventsOfAll_eq_flatMap, List.flatMap_map,
      Join.events, Nat.add_one_ne_zero, ↓reduceIte] at this ⊢
    omega
  missing _ _ hj := h.forked_missing hj
  turnsKnown turn hturn i hi := by
    rw [List.length_append, List.length_singleton]
    exact h.forked_turnsKnown hturn hi
  joinsKnown _ _ hk _ hi := h.forked_joinsKnown hk hi
  cost := by
    have := h.cost
    simp only [List.map_append, List.sum_append, sum_cost_tasks, List.map_cons, List.map_nil,
      List.sum_cons, List.sum_nil, Turn.cost, Join.cost, size, sizeAll_eq_sum, Nat.add_one_ne_zero,
      ↓reduceIte] at this ⊢
    omega

end

/-- The sum over a list of which one element is replaced. -/
theorem sum_map_set {α : Type} {a b : α} (f : α → Nat) : ∀ {l : List α} {i : Nat},
    l[i]? = some a → ((l.set i b).map f).sum + f a = (l.map f).sum + f b
  | [], i, h => by simp at h
  | x :: l, 0, h => by
    simp only [List.getElem?_cons_zero, Option.some.injEq] at h
    simp only [List.set_cons_zero, List.map_cons, List.sum_cons, h]
    omega
  | x :: l, i + 1, h => by
    have ih := sum_map_set (b := b) f (l := l) (i := i) (by simpa using h)
    simp only [List.set_cons_succ, List.map_cons, List.sum_cons]
    omega

section

variable {join : Nat} {j j' : Join} {more : List Turn}

/-- What a fork becomes reports where the fork did. -/
theorem split_known
    (h : Ledger all (fuel + 1) (.notice join :: queue) joins record) (hj : joins[join]? = some j)
    {i : Nat} (hfor : more.countP (Turn.isFor i) + (if j'.isFor i then 1 else 0) =
      if j.isFor i then 1 else 0)
    (hi : (∃ turn ∈ more, turn.isFor i = true) ∨ j'.isFor i = true) : i < join := by
  refine h.joinsKnown join j hj i ?_
  cases hji : j.isFor i with
  | true => rfl
  | false =>
    simp only [hji, Bool.false_eq_true, ↓reduceIte, Nat.add_eq_zero_iff,
      List.countP_eq_zero] at hfor
    rcases hi with ⟨turn, hturn, hi⟩ | hi
    · exact absurd hi (hfor.1 turn hturn)
    · simp [hi] at hfor

/-- A fork that had a notice misses one task less, and the others miss what they did. -/
theorem split_missing
    (h : Ledger all (fuel + 1) (.notice join :: queue) joins record) (hj : joins[join]? = some j)
    (hmissing : j'.missing + 1 = j.missing) {i : Nat} {k : Join}
    (hfor : more.countP (Turn.isFor i) + (if j'.isFor i then 1 else 0) =
      if j.isFor i then 1 else 0)
    (hk : (joins.set join j')[i]? = some k) :
    k.missing = (queue ++ more).countP (Turn.isFor i) +
      (joins.set join j').countP (Join.isFor i) := by
  have hlt : join < joins.length := (List.getElem?_eq_some_iff.1 hj).1
  have hle := List.boole_getElem_le_countP (p := Join.isFor i) hlt
  rw [List.countP_append, List.countP_set hlt]
  rw [(List.getElem?_eq_some_iff.1 hj).2] at hle ⊢
  by_cases hij : i = join
  · subst hij
    have hold := h.missing i j hj
    rw [List.getElem?_set_self hlt, Option.some.injEq] at hk
    rw [List.countP_cons_of_pos (by simp [Turn.isFor])] at hold
    subst hk
    omega
  · have hold := h.missing i k (by simpa [List.getElem?_set_ne (Ne.symm hij)] using hk)
    rw [List.countP_cons_of_neg (by simp [Turn.isFor, Ne.symm hij])] at hold
    omega

/-- A fork becomes another one and some turns: together they have the events, the reports and the
cost that the fork had, and so the ledger is kept. -/
theorem split (j' : Join) (more : List Turn)
    (h : Ledger all (fuel + 1) (.notice join :: queue) joins record) (hj : joins[join]? = some j)
    (hmissing : j'.missing + 1 = j.missing)
    (hevents : more.flatMap Turn.events ++ j'.events = j.events)
    (hfor : ∀ i, more.countP (Turn.isFor i) + (if j'.isFor i then 1 else 0) =
      if j.isFor i then 1 else 0)
    (hcost : (more.map Turn.cost).sum + j'.cost = j.cost) :
    Ledger all fuel (queue ++ more) (joins.set join j') record := by
  have hlt : join < joins.length := (List.getElem?_eq_some_iff.1 hj).1
  constructor
  case events =>
    intro e
    have hold := h.events e
    have hset := sum_map_set (b := j') (fun j => j.events.count e) hj
    have hsplit := congrArg (List.count e) hevents
    simp only [List.flatMap_append, List.flatMap_cons, Turn.events, List.nil_append,
      List.count_append, List.count_flatMap, Function.comp_def] at hold hset hsplit ⊢
    omega
  case missing =>
    intro i k hk
    exact h.split_missing hj hmissing (hfor i) hk
  case turnsKnown =>
    intro turn hturn i hi
    rw [List.length_set]
    rcases List.mem_append.1 hturn with hturn | hturn
    · exact h.turnsKnown turn (List.mem_cons_of_mem _ hturn) i hi
    · exact Nat.lt_trans (h.split_known hj (hfor i) (.inl ⟨turn, hturn, hi⟩)) hlt
  case joinsKnown =>
    intro k j₁ hk i hi
    by_cases hkj : k = join
    · subst hkj
      rw [List.getElem?_set_self hlt, Option.some.injEq] at hk
      subst hk
      exact h.split_known hj (hfor i) (.inr hi)
    · exact h.joinsKnown k j₁ (by simpa [List.getElem?_set_ne (Ne.symm hkj)] using hk) i hi
  case cost =>
    have hold := h.cost
    have hset := sum_map_set (b := j') Join.cost hj
    simp only [List.map_cons, List.sum_cons, Turn.cost, List.map_append, List.sum_append] at hold ⊢
    omega

end

/-- A notice counts down the fork it goes to, and the last one lets that go on. -/
theorem notified {join : Nat} (h : Ledger all (fuel + 1) (.notice join :: queue) joins record) :
    Ledger all fuel (Machine.notify ⟨queue, joins, record⟩ join).queue
      (Machine.notify ⟨queue, joins, record⟩ join).joins
      (Machine.notify ⟨queue, joins, record⟩ join).record := by
  have hlt : join < joins.length := h.turnsKnown _ List.mem_cons_self join (by simp [Turn.isFor])
  obtain ⟨j, hj⟩ : ∃ j, joins[join]? = some j := ⟨_, List.getElem?_eq_getElem hlt⟩
  have hpos : 0 < j.missing := by
    rw [h.missing join j hj, List.countP_cons_of_pos (by simp [Turn.isFor])]
    omega
  simp only [Machine.notify, hj, beq_iff_eq]
  split
  · next hone =>
    refine h.split _ [.run j.resume] hj (by simp only; omega) ?_ (fun i => ?_) ?_
    · simp [hone, Turn.events, Join.events]
    · simp [hone, Turn.isFor, Join.isFor]
    · simp [hone, Turn.cost, Join.cost]
  · next hone =>
    have hleft : j.missing - 1 ≠ 0 := by omega
    rw [← List.append_nil queue]
    refine h.split _ [] hj (by simp only; omega) ?_ (fun i => ?_) ?_
    · simp [Join.events, hleft, Nat.ne_of_gt hpos]
    · simp [Join.isFor, hleft, Nat.ne_of_gt hpos]
    · simp [Join.cost, hleft, Nat.ne_of_gt hpos]

end Ledger

/-- A turn up to its next pause, its next fork or its end keeps the ledger. -/
theorem advance_ledger {all : List Event} {fuel : Nat} {waiter : Option Nat} :
    ∀ (w : Work) (m : Machine),
      Ledger all (fuel + 1) (.run ⟨w, waiter⟩ :: m.queue) m.joins m.record →
      Ledger all fuel (advance waiter m w).queue (advance waiter m w).joins
        (advance waiter m w).record
  | done, m, h => by
    cases waiter with
    | none => exact h.drop rfl (fun _ => rfl) (by simp [Turn.cost, size])
    | some join =>
      exact h.requeue (.notice join) rfl (fun i => by simp [Turn.isFor])
        (by simp [Turn.cost, size])
  | event e rest, m, h => advance_ledger rest { m with record := e :: m.record } h.recorded
  | pause rest, m, h =>
    h.requeue (.run ⟨rest, waiter⟩) rfl (fun _ => rfl) (by simp [Turn.cost, size])
  | fork [] rest, m, h => by
    refine advance_ledger rest m (h.replace (.run ⟨rest, waiter⟩) 0 rfl (fun _ => rfl) ?_)
    simp only [Turn.cost, size, sizeAll]
    omega
  | fork (t :: ts) rest, m, h => h.forked

/-- The turns are all taken within their cost, and the ledger is kept. -/
theorem run_ledger {all : List Event} : ∀ (fuel : Nat) (m : Machine),
    Ledger all fuel m.queue m.joins m.record →
    ∃ left, Ledger all left [] (m.run fuel).joins (m.run fuel).record
  | 0, ⟨[], _, _⟩, h => ⟨0, h⟩
  | 0, ⟨turn :: queue, joins, record⟩, h => by
    have hcost := h.cost
    have hpos := turn.cost_pos
    simp only [List.map_cons, List.sum_cons] at hcost
    omega
  | fuel + 1, ⟨[], _, _⟩, h => ⟨fuel + 1, h⟩
  | fuel + 1, ⟨.run task :: queue, joins, record⟩, h =>
    run_ledger fuel _ (advance_ledger task.work ⟨queue, joins, record⟩ h)
  | fuel + 1, ⟨.notice join :: queue, joins, record⟩, h => run_ledger fuel _ h.notified

namespace Ledger

variable {all : List Event} {fuel : Nat} {joins : List Join} {record : List Event}

/-- When no turn is left, no fork waits: it would wait for a later one that waits as well. -/
theorem nobody_waits (h : Ledger all fuel [] joins record) :
    ∀ (later k : Nat) (j : Join), joins.length ≤ k + later → joins[k]? = some j → j.missing = 0
  | 0, k, j, hk, hj => absurd (List.getElem?_eq_some_iff.1 hj).1 (by omega)
  | later + 1, k, j, hk, hj => by
    rw [h.missing k j hj, List.countP_nil, Nat.zero_add]
    refine List.countP_eq_zero.2 fun j' hmem hfor => ?_
    obtain ⟨k', hk'⟩ := List.mem_iff_getElem?.1 hmem
    have hlt := h.joinsKnown k' j' hk' k hfor
    have hdone := h.nobody_waits later k' j' (by omega) hk'
    simp [Join.isFor, hdone] at hfor

/-- When no turn is left, all events have happened. -/
theorem closed (h : Ledger all fuel [] joins record) : record.Perm all := by
  refine List.perm_iff_count.2 fun e => ?_
  have hjoins : joins.flatMap Join.events = [] := by
    refine List.flatMap_eq_nil_iff.2 fun j hmem => ?_
    obtain ⟨k, hk⟩ := List.mem_iff_getElem?.1 hmem
    exact if_pos (h.nobody_waits joins.length k j (by omega) hk)
  simpa [hjoins] using h.events e

end Ledger

/-- The turns make all events of a work happen, each as often as it is in the work. -/
theorem schedule_perm (w : Work) : w.schedule.Perm w.events := by
  obtain ⟨left, h⟩ := run_ledger (2 * w.size) ⟨[.run ⟨w, none⟩], [], []⟩ (.start w)
  exact (List.reverse_perm _).trans h.closed

/-- Three tasks of different lengths, the last of which forks again: all events happen, out of
order. -/
example :
    let e (text : String) : Event := .logged ⟨.info, text⟩
    (fork [pauses 2 (event (e "a") done), event (e "b") done,
      fork [pause (event (e "c") done)] (event (e "d") done)] (event (e "e") done)).schedule =
        [e "b", e "a", e "c", e "d", e "e"] := by
  decide +kernel

end Attest.Work
