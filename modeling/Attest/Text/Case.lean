import Attest.Text.CaseTable
import Attest.Text.Class

/-!
# Lower and upper case

The full case mappings: one character may become several, and a capital sigma at the end of a word
becomes the final form.
-/

namespace Attest.Text

/-- The offset that a table of spans gives to a code point, if any. -/
def spanOffset? (spans : Array (Nat × Nat × Nat × Int)) (code : Nat) : Option Int :=
  (spans.find? fun (first, last, step, _) =>
    first ≤ code && code ≤ last && (code - first) % step == 0).map (·.2.2.2)

/-- The image of a character under a mapping given by spans and expansions. -/
def mapCase (spans : Array (Nat × Nat × Nat × Int)) (expansions : Array (Nat × List Nat))
    (c : Char) : List Char :=
  match expansions.find? (·.1 == c.toNat) with
  | some (_, image) => image.map Char.ofNat
  | none =>
    match spanOffset? spans c.toNat with
    | some offset => [Char.ofNat (c.toNat + offset).toNat]
    | none => [c]

/-- The lower case of one character outside any context. -/
def lowerChar (c : Char) : List Char :=
  if c.toNat < 128 then [c.toLower] else mapCase lowerSpans lowerExpansions c

/-- The upper case of one character. -/
def upperChar (c : Char) : List Char :=
  if c.toNat < 128 then [c.toUpper] else mapCase upperSpans upperExpansions c

/-- Whether the nearest character that is not passed over has a case. -/
def nextIsCased : List Char → Bool
  | [] => false
  | c :: rest =>
    if inRanges caseIgnorableRanges c.toNat then nextIsCased rest
    else inRanges casedRanges c.toNat

/-- The lower case of what follows `before`, which is held in reverse. -/
def lowerAfter (before : List Char) : List Char → List Char
  | [] => []
  | c :: rest =>
    let image :=
      if c == 'Σ' then
        if nextIsCased before && !nextIsCased rest then ['ς'] else ['σ']
      else lowerChar c
    image ++ lowerAfter (c :: before) rest

/-- The text in lower case. -/
def lower (s : String) : String := String.ofList (lowerAfter [] s.toList)

/-- The text in upper case. -/
def upper (s : String) : String := String.ofList (s.toList.flatMap upperChar)

/-- The single small letter that stands for a character where case is ignored. -/
def foldChar (c : Char) : Char := (lowerChar c).headD c

/-- The single capital letter of a character. -/
def capitalChar (c : Char) : Char := (upperChar c).headD c

/-- The characters that a small letter stands for where case is ignored. -/
def foldedTo (c : Char) : List Char :=
  let shifted := lowerSpans.toList.filterMap fun (first, last, step, offset) =>
    let code := (c.toNat - offset).toNat
    if first ≤ code && code ≤ last && (code - first) % step == 0 then some (Char.ofNat code) else none
  let expanded := lowerExpansions.toList.filterMap fun (code, image) =>
    if image.head? == some c.toNat then some (Char.ofNat code) else none
  (c :: c.toUpper :: shifted ++ expanded).filter (foldChar · == c)

end Attest.Text
