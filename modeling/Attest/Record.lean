import Attest.Value.Basic

/-!
# The record of a computation

What can be observed of a computation besides its outcome: the calls of user functions, what became
of the answers that were promised for later, and the lines written to the log.
-/

namespace Attest

/-- How important a line of the log is. -/
inductive LogLevel where
  | debug
  | info
  | warning
  deriving DecidableEq, Repr

def LogLevel.name : LogLevel → String
  | .debug => "DEBUG"
  | .info => "INFO"
  | .warning => "WARNING"

def LogLevel.number : LogLevel → Nat
  | .debug => 10
  | .info => 20
  | .warning => 30

structure LogLine where
  level : LogLevel
  text : String
  deriving DecidableEq, Repr

/-- Whether a log that is set to a level shows a line; one that was never set shows warnings. -/
def LogLine.isVisible (level : Nat) (line : LogLine) : Bool :=
  (if level == 0 then LogLevel.warning.number else level) ≤ line.level.number

/-- The lines that a log shows. -/
def LogLine.visible (level : Nat) (lines : List LogLine) : List LogLine :=
  lines.filter (·.isVisible level)

/-- One call of a user function. -/
structure Handle where
  function : FunctionId
  /-- The name under which the call is traced, if it is. -/
  label : Option String
  /-- Whether the call promised its answer for later. -/
  isPromise : Bool
  deriving DecidableEq, Repr

inductive Event where
  | called (h : Handle)
  /-- The promised answer is being worked on. -/
  | started (h : Handle)
  /-- The work on the promised answer is over. -/
  | ended (h : Handle)
  /-- The promise was dropped before any work on it. -/
  | closed (h : Handle)
  | logged (line : LogLine)
  deriving DecidableEq, Repr

namespace Event

/-- The line that a traced event leaves. -/
def trace? : Event → Option String
  | .called h => h.label.map (· ++ ":call")
  | .started h => h.label.map (· ++ ":run")
  | .ended h => h.label.map (· ++ ":end")
  | .closed _ | .logged _ => none

def logLine? : Event → Option LogLine
  | .logged line => some line
  | _ => none

/-- The promise that an event makes. -/
def promised? : Event → Option Handle
  | .called h => if h.isPromise then some h else none
  | _ => none

/-- The promise that an event settles, by its end or by closing it. -/
def settled? : Event → Option Handle
  | .ended h | .closed h => some h
  | _ => none

end Event

/-- The trace of a computation. -/
def traceOf (events : List Event) : List String := events.filterMap (·.trace?)

/-- The log of a computation. -/
def logOf (events : List Event) : List LogLine := events.filterMap (·.logLine?)

/-- The number of promises made. -/
def promises (events : List Event) : Nat := (events.filterMap (·.promised?)).length

/-- The number of promises that were neither kept nor closed. -/
def unsettled (events : List Event) : Int :=
  (promises events : Int) - ((events.filterMap (·.settled?)).length : Int)

end Attest
