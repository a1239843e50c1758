import Attest.Record

/-!
# Deferred work

The work behind a promised answer: events, pauses in which others go on, and forks whose tasks run
side by side until all of them are done. `Work.schedule` runs the tasks in turn, first come first
served: a task runs up to its next pause and then queues up again; a task that ends gives notice;
the last notice of a fork lets the task that waits for it queue up.

* `schedule`: the events of a work in the order in which they happen.
-/

namespace Attest

inductive Work where
  | done
  | event (e : Event) (rest : Work)
  | pause (rest : Work)
  | fork (tasks : List Work) (rest : Work)

namespace Work

/-- One work after the other. -/
def append : Work → Work → Work
  | done, w => w
  | event e rest, w => event e (rest.append w)
  | pause rest, w => pause (rest.append w)
  | fork tasks rest, w => fork tasks (rest.append w)

/-- Some events, then a work. -/
def ofEvents (events : List Event) (rest : Work) : Work := events.foldr event rest

/-- Some pauses, then a work. -/
def pauses : (count : Nat) → (rest : Work) → Work
  | 0, rest => rest
  | count + 1, rest => pause (pauses count rest)

/-- What happens before the first pause or fork. -/
def opening : Work → List Event
  | event e rest => e :: rest.opening
  | _ => []

mutual

/-- The number of nodes, which bounds the number of turns. -/
def size : Work → Nat
  | done => 1
  | event _ rest => rest.size + 1
  | pause rest => rest.size + 1
  | fork tasks rest => sizeAll tasks + rest.size + 1

def sizeAll : List Work → Nat
  | [] => 0
  | w :: rest => w.size + sizeAll rest

end

/-! ## Turns -/

/-- A task: what is left to do, and the fork that waits for it. -/
structure Task where
  work : Work
  waiter : Option Nat

/-- A fork that waits: how many of its tasks are not done, and who goes on afterwards. -/
structure Join where
  missing : Nat
  resume : Task

inductive Turn where
  | run (task : Task)
  /-- A task of a fork is done. -/
  | notice (join : Nat)

structure Machine where
  queue : List Turn
  joins : List Join
  /-- What happened, last first. -/
  record : List Event

/-- Runs a task up to its next pause, its next fork or its end. -/
def advance (waiter : Option Nat) (m : Machine) : Work → Machine
  | done =>
    match waiter with
    | some join => { m with queue := m.queue ++ [.notice join] }
    | none => m
  | event e rest => advance waiter { m with record := e :: m.record } rest
  | pause rest => { m with queue := m.queue ++ [.run ⟨rest, waiter⟩] }
  | fork [] rest => advance waiter m rest
  | fork (t :: ts) rest =>
    { m with
      joins := m.joins ++ [⟨ts.length + 1, ⟨rest, waiter⟩⟩]
      queue := m.queue ++ (t :: ts).map fun w => .run ⟨w, some m.joins.length⟩ }

/-- Counts one finished task of a fork. -/
def Machine.notify (m : Machine) (join : Nat) : Machine :=
  match m.joins[join]? with
  | none => m
  | some j =>
    let joins := m.joins.set join { j with missing := j.missing - 1 }
    if j.missing == 1 then { m with joins, queue := m.queue ++ [.run j.resume] }
    else { m with joins }

/-- Takes turns until the queue is empty. -/
def Machine.run : (fuel : Nat) → Machine → Machine
  | 0, m => m
  | fuel + 1, m =>
    match m.queue with
    | [] => m
    | .run task :: queue => (advance task.waiter { m with queue } task.work).run fuel
    | .notice join :: queue => ({ m with queue }.notify join).run fuel

/-- The events of a work in the order in which they happen. -/
def schedule (w : Work) : List Event :=
  ((Machine.mk [.run ⟨w, none⟩] [] []).run (2 * w.size)).record.reverse

end Work

end Attest
