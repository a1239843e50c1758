import Attest.Value.Types

/-!
# Affixes

Whether a text, or bytes, start or end with another one, or with one of several given as a tuple.
The affixes of a tuple are tried in order, and what comes after the first that fits is not looked
at.
-/

namespace Attest.Value

def asBytes? : Value → Option (List UInt8)
  | .bytes bs => some bs
  | _ => none

/-- Whether a sequence starts, or else ends, with another. -/
def hasEdge {α : Type} [BEq α] (atStart : Bool) (part whole : List α) : Bool :=
  if atStart then part.isPrefixOf whole else part.isSuffixOf whole

/-- Whether one of some affixes, each of which is read first, fits. -/
def anyFits {α : Type} (read? : Value → Option α) (refuse : Value → Fault) (fits : α → Bool) :
    List Value → Except Fault Bool
  | [] => .ok false
  | v :: rest =>
    match read? v with
    | none => .error (refuse v)
    | some s => if fits s then .ok true else anyFits read? refuse fits rest

/-- Whether an affix, or one of a tuple of them, fits. -/
def fitsAffix {α : Type} (operation wanted : String) (read? : Value → Option α)
    (refuse : Value → Fault) (fits : α → Bool) (affix : Value) : Except Fault Bool :=
  match read? affix, affix with
  | some s, _ => .ok (fits s)
  | none, .tuple items => anyFits read? refuse fits items
  | none, _ => .error (.notAffix operation wanted affix.qualifiedTypeName)

/-- The fault of an item that is no text among the affixes of a text. -/
def notTextAffix (operation : String) (item : Value) : Fault :=
  .badCall ("tuple for " ++ operation ++ " must only contain str, not " ++ item.qualifiedTypeName)

/-- The fault of asking the type of texts itself about an affix: a text is taken for the one that is
asked, and then the affix is missing. -/
def typeAffix (operation : String) (affix : Value) : Fault :=
  match affix.asText? with
  | some _ => .badCall (operation ++ "() takes at least 1 argument (0 given)")
  | none => .notTextOperation operation affix.qualifiedTypeName

/-- Whether a text, or bytes, start or end with one of the affixes. -/
def hasAffix (atStart : Bool) (v affix : Value) : Except Fault Bool :=
  let operation := if atStart then "startswith" else "endswith"
  match v.asText?, v with
  | some s, _ =>
    affix.fitsAffix operation "str" asText? (notTextAffix operation)
      fun t => hasEdge atStart t.toList s.toList
  | none, .bytes bs =>
    affix.fitsAffix operation "bytes" asBytes? (fun item => .notBytes item.qualifiedTypeName)
      fun ps => hasEdge atStart ps bs
  | none, .type .text => .error (typeAffix operation affix)
  | none, _ => .error (.noAttribute v.owner operation)

end Attest.Value
