import Attest.Value.Affix
import Attest.Value.Multiple
import Attest.Pattern.Match

/-!
# Checks and changes

What the checks of a validator ask of a value, and what its changes make of one, as far as they need
no user function.
-/

namespace Attest

namespace Value

/-- Whether a sequence occurs in another, without gaps. -/
def occursIn {α : Type} [BEq α] (part : List α) : List α → Bool
  | [] => part.isEmpty
  | c :: rest => part.isPrefixOf (c :: rest) || occursIn part rest

/-- Some bytes, or the number of a byte, in bytes. -/
def hasByte (bs : List UInt8) (part : Value) : Except Fault Bool :=
  match part, part.asInt? with
  | .bytes ps, _ => .ok (occursIn ps bs)
  | _, some n => if 0 ≤ n && n < 256 then .ok (bs.any fun b => b.toNat == n) else .error .notByte
  | _, none => .error (.notBytes part.qualifiedTypeName)

/-- Membership in a container, or a text in a text. -/
def hasMember (container part : Value) : Except Fault Bool :=
  match container.asText? with
  | some s =>
    match part.asText? with
    | some t => .ok (occursIn t.toList s.toList)
    | none => .error (.notPart part.qualifiedTypeName)
  | none =>
    match container, part with
    | .bytes bs, _ => hasByte bs part
    | .list _, _ | .tuple _, _ | .set _, .set _ => do
      (← container.iterate).anyM fun item => item.equals part
    | .set _, _ | .map _, _ =>
      match part.unhashable? with
      | some culprit => .error (.unhashable culprit)
      | none => do return (← container.iterate).any fun item => item.same part
    | _, _ => .error (.noMembers container.qualifiedTypeName)

/-- Whether a number is neither infinite nor undefined. -/
def isFiniteNumber (v : Value) : Except Fault Bool :=
  match v.numberAsFloat? with
  | some x => do return Number.isFinite (← x)
  | none => .error (.notReal v.qualifiedTypeName)

/-- Whether a value, as a float, has no fraction. -/
def isIntegral (v : Value) : Except Fault Bool := do
  return (Number.toInt? (← v.toFloat)).isSome

/-- Whether a moment stands in a relation to the present one, as instants. -/
def relatesToNow (r : Relation) (now : Calendar.Moment) (v : Value) : Except Fault Bool :=
  match v with
  | .moment m => .ok (r.holds (compare (m.clock - m.time.offset.getD 0) now.clock))
  | .time _ => .error (.unordered r "datetime.time" "datetime.datetime")
  | .type .moment =>
    .error (.badCall
      "tzinfo argument must be None or of a tzinfo subclass, not type 'getset_descriptor'")
  | _ => .error (.noAttribute v.owner "tzinfo")

/-- Whether a pattern matches somewhere in a text, or in bytes if it is written in bytes. -/
def matchesPattern (p : Pattern) (v : Value) : Except Fault Bool :=
  match p.source, v.asText?, v with
  | .text _, some s, _ => .ok (p.search s)
  | .text _, none, .bytes _ => .error .patternOnBytes
  | .bytes _, some _, _ => .error .bytesPatternOnText
  | .bytes _, none, .bytes bs => .ok (p.search (bytesText bs))
  | _, none, _ => .error (.notSearchable v.qualifiedTypeName)

/-- A text changed by a function on texts. -/
def changeText (operation : String) (f : String → String) (v : Value) : Except Fault Value :=
  match v.asText? with
  | some s => .ok (.text (f s))
  | none => .error (.notTextOperation operation v.qualifiedTypeName)

end Value

open Value in
/-- Whether a check holds of a value. A check by a user function holds of every value here; it is
asked where calls can be made. -/
def Check.holds (now : Calendar.Moment) (v : Value) : Check → Except Fault Bool
  | .equals w => v.identical w
  | .differs w => do return !(← v.identical w)
  | .among candidates => isAmong candidates v
  | .notAmong candidates => do return !(← isAmong candidates v)
  | .compares r bound => v.relate r bound
  | .between low high => do
    if ← low.relate .atMost v then v.relate .atMost high else return false
  | .lengthIs n => do return (Value.int (← v.length)).same n
  | .lengthCompares r bound => do (Value.int (← v.length)).relate r bound
  | .notEmpty => do return (← v.length) != 0
  | .hasMatch p => v.matchesPattern p
  | .startsWith s => v.hasAffix true s
  | .endsWith s => v.hasAffix false s
  | .contains part => v.hasMember part
  | .integral => v.isIntegral
  | .finite => v.isFiniteNumber
  | .multipleOf base => v.isMultiple base
  | .positive => v.relate .greater (.int 0)
  | .negative => v.relate .less (.int 0)
  | .past => v.relatesToNow .less now
  | .future => v.relatesToNow .greater now
  | .distinct => do allDistinct [] (← v.iterate)
  | .hasKeys keys => keys.foldlM (fun holds key => if holds then v.hasMember key else .ok false) true
  | .impossible f => .error f
  | .satisfies _ => .ok true

/-- What a change makes of a value. A change by a user function leaves every value here; it is made
where calls can be made. -/
def Change.applied (v : Value) : Change → Except Fault Value
  | .trim => v.changeText "strip" Text.trim
  | .lower => v.changeText "lower" Text.lower
  | .upper => v.changeText "upper" Text.upper
  | .power exponent => v.power exponent
  | .apply _ => .ok v

end Attest
