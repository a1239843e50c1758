import Attest.Raised
import Attest.Work

/-!
# Calls

What comes back from a call: an answer, something raised, or the promise of an answer. The work
behind a promise waits for other promises, calls functions itself, and catches what they raise or
leaves it.

* `Promise.next`, `Promise.recover`: deferred work that waits, and goes on.
* `Call.proceed`: goes on with a function of the answer, at once or in deferred work.
* `Call.settle`: waits for the answer, if it was promised.
-/

namespace Attest

/-- A promised answer: the work it takes and what comes of it. -/
structure Promise (α : Type) where
  work : Work
  outcome : Except Raised α

/-- What a call hands back. The handles are the user functions' promises that wait inside. -/
inductive Answer (α : Type) where
  | returned (a : α)
  | raised (r : Raised)
  | promised (handles : List Handle) (p : Promise α)

/-- A call that has come back, with what happened until then. -/
structure Call (α : Type) where
  events : List Event
  answer : Answer α

namespace Promise

variable {α β : Type}

/-- Work that does nothing and raises something. -/
def raised (r : Raised) : Promise α := ⟨.done, .error r⟩

/-- Goes on with the answer once it is there. -/
def next (p : Promise α) (f : α → Promise β) : Promise β :=
  match p.outcome with
  | .ok a => ⟨p.work.append (f a).work, (f a).outcome⟩
  | .error r => ⟨p.work, .error r⟩

/-- Goes on with what was raised instead of the answer. -/
def recover (p : Promise α) (f : Raised → Promise α) : Promise α :=
  match p.outcome with
  | .ok a => ⟨p.work, .ok a⟩
  | .error r => ⟨p.work.append (f r).work, (f r).outcome⟩

end Promise

namespace Call

variable {α β : Type}

def returned (a : α) : Call α := ⟨[], .returned a⟩

def raised (r : Raised) : Call α := ⟨[], .raised r⟩

/-- An outcome that is there at once. -/
def ofExcept : Except Raised α → Call α
  | .ok a => returned a
  | .error r => raised r

/-- The call with events that happened before. -/
def after (events : List Event) (c : Call α) : Call α := ⟨events ++ c.events, c.answer⟩

/-- The call as seen from deferred work that catches what it raises: made, and waited for. -/
def toPromise (c : Call α) : Promise α :=
  match c.answer with
  | .returned a => ⟨Work.ofEvents c.events .done, .ok a⟩
  | .raised r => ⟨Work.ofEvents c.events .done, .error r⟩
  | .promised _ p => ⟨Work.ofEvents c.events p.work, p.outcome⟩

/-- The call with what it raises at once as deferred work raises it. -/
def inWork (c : Call α) : Call α :=
  match c.answer with
  | .raised r => ⟨c.events, .raised r.inWork⟩
  | _ => c

/-- The call as seen from deferred work that does not catch what it raises. -/
def awaited (c : Call α) : Promise α := c.inWork.toPromise

/-- Goes on with a function of the answer: at once if the answer is there, else in the work that
waits for it. -/
def proceed (c : Call α) (f : α → Call β) : Call β :=
  match c.answer with
  | .returned a => (f a).after c.events
  | .raised r => ⟨c.events, .raised r⟩
  | .promised handles source => ⟨c.events, .promised handles (source.next fun a => (f a).awaited)⟩

/-- One call after another one that is over. -/
def next (c : Call α) (f : α → Call β) : Call β :=
  match c.answer with
  | .returned a => (f a).after c.events
  | .raised r => ⟨c.events, .raised r⟩
  | .promised handles p => ⟨c.events, .promised handles (p.next fun a => (f a).toPromise)⟩

/-- Whether the answer was promised for later. -/
def isPromised (c : Call α) : Bool :=
  match c.answer with
  | .promised _ _ => true
  | _ => false

/-- The outcome once it is there, and all that happened until then. -/
def settle (c : Call α) : List Event × Except Raised α :=
  match c.answer with
  | .returned a => (c.events, .ok a)
  | .raised r => (c.events, .error r)
  | .promised _ p => (c.events ++ p.work.schedule, p.outcome)

/-- The events of a call whose promise, if there is one, is dropped: the promises inside are
closed. -/
def discard (c : Call α) : List Event :=
  match c.answer with
  | .promised handles _ => c.events ++ handles.map .closed
  | _ => c.events

end Call

/-- What a step does with its arguments. -/
abbrev Program := List Value → Call Value

/-- The first argument; missing if there is none. -/
def firstArgument (args : List Value) : Value := args.headD .missing

/-- What a user function answers to one call. -/
structure Reply where
  /-- The name under which the call is traced, if it is. -/
  label : Option String
  /-- For an answer that is promised for later, how often the work on it pauses. -/
  pauses : Option Nat
  /-- What the body of the function comes to. -/
  outcome : Except Raised Value

/-- What surrounds the validators: the user functions, and the present moment in universal time. -/
structure World where
  reply : FunctionId → List Value → Reply
  now : Calendar.Moment

/-- The call of a user function. The body behind a promised answer begins when the promise is waited
for; nothing runs on its own. -/
def World.call (w : World) (f : FunctionId) : Program := fun args =>
  let reply := w.reply f args
  let handle : Handle := ⟨f, reply.label, reply.pauses.isSome⟩
  match reply.pauses with
  | none => (Call.ofExcept reply.outcome).after [.called handle]
  | some count =>
    let work := Work.event (.started handle) (Work.pauses count (.event (.ended handle) .done))
    ⟨[.called handle], .promised [handle] ⟨work, reply.outcome.mapError Raised.inWork⟩⟩

end Attest
