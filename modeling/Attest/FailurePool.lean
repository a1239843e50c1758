import Attest.Failure

/-!
# Shared failures

Failures that are shared and change in place. One failure may stand below several others, or several
times below one, and a change of it shows through all of them. A pool holds the failures by number,
in the order in which they were made; a number that is not in the pool stands for nothing.

The context of a failure may hold other failures of the pool by reference. A template shows such a
one by its message, as it is when the template is filled.

* `under`: puts segments in front of the trail of a failure and of all below it, once for every way
  that leads down to them.
* `addChild`: hangs a failure below another one, located at a segment.
* `failure`: what a number stands for now, as a tree.

A failure that came to stand below itself has no tree; walks through it are an `endless` fault.
-/

namespace Attest

/-- A failure in a pool: its head, the numbers of the failures below it, and those that its context
holds under a name. -/
structure SharedFailure where
  notice : Notice
  children : List Nat
  held : List (String × Nat)

structure FailurePool where
  nodes : List SharedFailure

namespace FailurePool

def empty : FailurePool := ⟨[]⟩

/-- Puts a failure in the place of a number. -/
def set (pool : FailurePool) (n : Nat) (node : SharedFailure) : FailurePool :=
  ⟨pool.nodes.set n node⟩

/-- The failures that a context holds, by their messages. -/
def heldTexts (pool : FailurePool) (held : List (String × Nat)) : List (String × Value) :=
  held.filterMap fun (name, n) =>
    pool.nodes[n]?.map fun node => (name, .text node.notice.message)

/-- The head of a failure with all that its template may name. -/
def shown (pool : FailurePool) (node : SharedFailure) : Notice :=
  { node.notice with context := node.notice.context ++ pool.heldTexts node.held }

/-- The failure with its message brought up to date. -/
def refresh (pool : FailurePool) (node : SharedFailure) : Except Fault SharedFailure := do
  let message ← (pool.shown node).worded node.children.length
  return { node with notice := { node.notice with message } }

/-- Makes a failure with others below it and others in its context; answers its number. -/
def make (pool : FailurePool) (p : Notice.Parts) (children : List Nat) (held : List (String × Nat)) :
    Except Fault (Nat × FailurePool) := do
  let node ← pool.refresh ⟨← p.notice, children, held⟩
  return (pool.nodes.length, ⟨pool.nodes ++ [node]⟩)

/-- Puts segments in front of the trail of a failure, and then of those below it, from left to
right. No way down is longer than the pool, unless it leads in a circle. -/
def underFrom (outer : Trail) : (depth : Nat) → FailurePool → Nat → Except Fault FailurePool
  | 0, _, _ => .error .endless
  | depth + 1, pool, n =>
    match pool.nodes[n]? with
    | none => .ok pool
    | some node => do
      let node ← pool.refresh { node with notice := node.notice.under outer }
      node.children.foldlM (underFrom outer depth) (pool.set n node)

/-- Puts segments in front of the trail of a failure and of all below it. -/
def under (pool : FailurePool) (outer : Trail) (n : Nat) : Except Fault FailurePool :=
  underFrom outer pool.nodes.length pool n

/-- Puts the segments of a path in front, if it is one; what counts as false changes nothing. -/
def inside (pool : FailurePool) (path : Value) (n : Nat) : Except Fault FailurePool := do
  if path.isTruthy then pool.under (← path.iterate) n else return pool

/-- Records the segment as the key of a failure, unless it has one, and puts it in front of its
trail. The null segment changes nothing. -/
def locate (pool : FailurePool) (segment : Value) (n : Nat) : Except Fault FailurePool :=
  match segment, pool.nodes[n]? with
  | .null, _ | _, none => .ok pool
  | _, some node =>
    (pool.set n { node with notice := node.notice.withKey segment }).under [segment] n

/-- Hangs a failure below another one, located at a segment, and words the other one anew. -/
def addChild (pool : FailurePool) (parent child : Nat) (segment : Value) :
    Except Fault FailurePool := do
  let pool ← pool.locate segment child
  match pool.nodes[parent]? with
  | none => return pool
  | some node =>
    return pool.set parent (← pool.refresh { node with children := node.children ++ [child] })

/-- The tree of a number. -/
def failureFrom (pool : FailurePool) : (depth : Nat) → Nat → Except Fault (Option Failure)
  | 0, _ => .error .endless
  | depth + 1, n =>
    match pool.nodes[n]? with
    | none => .ok none
    | some node => do
      let children ← node.children.mapM (pool.failureFrom depth)
      return some (.mk (pool.shown node) (children.filterMap id))

/-- What a number stands for now. -/
def failure (pool : FailurePool) (n : Nat) : Except Fault (Option Failure) :=
  if n < pool.nodes.length then pool.failureFrom pool.nodes.length n else .ok none

end FailurePool

end Attest
