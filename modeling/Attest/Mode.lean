/-!
# Completion modes

How a record is completed: whether absent keys are judged as missing, what happens to keys that the
schema does not know, and whether entries that stay missing are shown.
-/

namespace Attest

inductive Mode where
  /-- Absent keys are judged as missing; unknown keys fail; every key of the schema is shown. -/
  | strict
  /-- Absent keys are judged as missing; unknown keys are dropped, and so is what stays missing. -/
  | defined
  /-- Only present keys are judged; unknown keys are dropped, and so is what stays missing. -/
  | given
  /-- Absent keys are judged as missing; unknown keys pass through. -/
  | all
  deriving DecidableEq, Repr

namespace Mode

def name : Mode → String
  | .strict => "STRICT"
  | .defined => "DEFINED"
  | .given => "PARTIAL"
  | .all => "ALL"

/-- The modes in the order in which messages list them. -/
def values : List Mode := [.strict, .defined, .given, .all]

def ofName? (name : String) : Option Mode := values.find? (·.name == name)

/-- Whether absent keys of the schema are judged as missing. -/
def fillsMissing (m : Mode) : Bool := m != .given

/-- Whether entries that stay missing are left out. -/
def dropsMissing (m : Mode) : Bool := m == .defined || m == .given

end Mode

end Attest
