/-!
# Templates

Texts with placeholders: `$name` and `$` followed by a name in braces stand for the text of a
variable, `$$` for a dollar sign, and any other dollar sign for itself. A template is cut into
pieces once, and each piece is filled on its own, so that no inserted text is read again.
-/

namespace Attest.Text

/-- A part of a template. -/
inductive Piece where
  /-- Text that stands for itself. -/
  | literal (text : List Char)
  /-- A named place, with the text that stays there when the name is unknown. -/
  | hole (name written : List Char)
  deriving DecidableEq, Repr

/-- A character that a name starts with. -/
def isNameStart (c : Char) : Bool := c == '_' || c.isAlpha

/-- A character inside a name. -/
def isNameChar (c : Char) : Bool := isNameStart c || c.isDigit

/-- The name that the text starts with, and what follows it. -/
def leadingName? : List Char → Option (List Char × List Char)
  | [] => none
  | c :: rest =>
    if isNameStart c then some (c :: rest.takeWhile isNameChar, rest.dropWhile isNameChar) else none

/-- The piece that a dollar sign opens, given what follows the sign, and the text after the
piece. -/
def afterDollar : List Char → Piece × List Char
  | '$' :: rest => (.literal ['$'], rest)
  | '\x7b' :: rest =>
    match leadingName? rest with
    | some (name, '\x7d' :: after) => (.hole name ('$' :: '\x7b' :: name ++ ['\x7d']), after)
    | _ => (.literal ['$'], '\x7b' :: rest)
  | rest =>
    match leadingName? rest with
    | some (name, after) => (.hole name ('$' :: name), after)
    | none => (.literal ['$'], rest)

theorem leadingName?_length {s name rest : List Char} (h : leadingName? s = some (name, rest)) :
    rest.length < s.length := by
  cases s with
  | nil => simp [leadingName?] at h
  | cons c tail =>
    simp only [leadingName?] at h
    split at h
    · simp only [Option.some.injEq, Prod.mk.injEq] at h
      have := (List.dropWhile_suffix (p := isNameChar) (l := tail)).length_le
      simp only [← h.2, List.length_cons]
      omega
    · simp at h

theorem afterDollar_length (s : List Char) : (afterDollar s).2.length ≤ s.length := by
  unfold afterDollar
  split
  · simp
  · split
    · rename_i h
      have := leadingName?_length h
      simp only [List.length_cons] at this ⊢
      omega
    · simp
  · split
    · rename_i h
      have := leadingName?_length h
      simp only at this ⊢
      omega
    · simp

/-- Cuts a template into its pieces. -/
def pieces : List Char → List Piece
  | [] => []
  | c :: rest =>
    if c = '$' then
      (afterDollar rest).1 :: pieces (afterDollar rest).2
    else .literal [c] :: pieces rest
termination_by s => s.length
decreasing_by
  · have := afterDollar_length rest
    simp only [List.length_cons]
    omega
  · simp

/-- The text of one piece under an assignment of texts to names. -/
def Piece.fill (vars : String → Option String) : Piece → List Char
  | .literal text => text
  | .hole name written => ((vars (String.ofList name)).map String.toList).getD written

/-- The template with its placeholders filled; an unknown name leaves its placeholder as written. -/
def fillTemplate (template : String) (vars : String → Option String) : String :=
  String.ofList ((pieces template.toList).flatMap (·.fill vars))

end Attest.Text
