import Attest.Fault
import Attest.Text.Quoted

/-!
# Cursors in documents

A place in the text of a settings document, and the scalars that can be read from it: quoted ones,
unquoted ones over one or several lines, and blocks of lines. A line break inside a scalar counts as
a space; further breaks behind it count as themselves.
-/

namespace Attest.Document

/-- What is left of a document, and where it starts. -/
structure Cursor where
  rest : List Char
  index : Nat
  line : Nat
  column : Nat

/-- The characters that end a line. -/
def isBreak (c : Char) : Bool := c == '\n' || c == '\u0085' || c == '\u2028' || c == '\u2029'

/-- A space, a tab, a line break, or the end. -/
def isGap : Option Char → Bool
  | none => true
  | some c => c == ' ' || c == '\t' || isBreak c

/-- The characters that a document may hold. -/
def isAllowed (c : Char) : Bool :=
  let n := c.toNat
  n == 9 || n == 10 || n == 13 || (0x20 ≤ n && n ≤ 0x7e) || n == 0x85 ||
    (0xa0 ≤ n && n ≤ 0xd7ff) || (0xe000 ≤ n && n ≤ 0xfffd) || 0x10000 ≤ n

/-- A text with every kind of line end written in one way. -/
def withPlainBreaks : List Char → List Char
  | '\r' :: '\n' :: rest => '\n' :: withPlainBreaks rest
  | '\r' :: rest => '\n' :: withPlainBreaks rest
  | c :: rest => c :: withPlainBreaks rest
  | [] => []

namespace Cursor

def ofText (text : String) : Cursor := ⟨withPlainBreaks text.toList, 0, 0, 0⟩

def peek (c : Cursor) (n : Nat) : Option Char := c.rest[n]?

/-- The cursor behind the next characters. -/
def skip : (count : Nat) → Cursor → Cursor
  | 0, c => c
  | count + 1, c =>
    match c.rest with
    | [] => c
    | ch :: rest =>
      if isBreak ch then skip count ⟨rest, c.index + 1, c.line + 1, 0⟩
      else skip count ⟨rest, c.index + 1, c.line, if ch == '\ufeff' then c.column else c.column + 1⟩

/-- The characters from here on that a test holds of, and the cursor behind them. -/
def span (c : Cursor) (test : Char → Bool) : List Char × Cursor :=
  let chars := c.rest.takeWhile test
  (chars, c.skip chars.length)

def skipSpaces (c : Cursor) : Cursor := (c.span (· == ' ')).2

def skipBlanks (c : Cursor) : Cursor := (c.span fun ch => ch == ' ' || ch == '\t').2

/-- The spaces up to a column. -/
def skipIndent (c : Cursor) (indent : Nat) : Cursor :=
  c.skip (min (c.rest.takeWhile (· == ' ')).length (indent - c.column))

/-- A line break, if there is one here. -/
def takeBreak (c : Cursor) : Option (Char × Cursor) :=
  match c.rest with
  | ch :: _ => if isBreak ch then some (if ch == '\u0085' then '\n' else ch, c.skip 1) else none
  | [] => none

/-- The cursor at the end of the line. -/
def skipLine (c : Cursor) : Cursor := (c.span fun ch => !isBreak ch).2

/-- Whether three equal marks stand here, followed by a gap. -/
def isAtMark (c : Cursor) (mark : Char) : Bool :=
  c.rest.take 3 == [mark, mark, mark] && isGap (c.peek 3)

/-- Whether a document begins or ends here. -/
def isAtBoundary (c : Cursor) : Bool := c.isAtMark '-' || c.isAtMark '.'

/-! ## Quoted scalars -/

/-- The breaks of the lines that are empty from here on. -/
def emptyLines : (fuel : Nat) → Cursor → Except Fault (List Char × Cursor)
  | 0, _ => .error .badDocument
  | fuel + 1, c =>
    if c.isAtBoundary then .error .badDocument
    else
      let c := c.skipBlanks
      match c.takeBreak with
      | none => .ok ([], c)
      | some (ch, c) => do
        let (more, c) ← emptyLines fuel c
        return (ch :: more, c)

/-- What a line break and the empty lines behind it stand for. -/
def folded (first : Char) (more : List Char) : List Char :=
  if first != '\n' then first :: more else if more.isEmpty then [' '] else more

/-- Spaces, or a line break with empty lines. -/
def quotedGap (fuel : Nat) (c : Cursor) : Except Fault (List Char × Cursor) :=
  let (blanks, c) := c.span fun ch => ch == ' ' || ch == '\t'
  match c.takeBreak with
  | some (ch, c) => do
    let (more, c) ← emptyLines fuel c
    return (folded ch more, c)
  | none => if c.rest.isEmpty then .error .badDocument else .ok (blanks, c)

/-- The characters that a backslash and a letter stand for. -/
def escapes : List (Char × Char) :=
  [('0', '\x00'), ('a', '\x07'), ('b', '\x08'), ('t', '\t'), ('\t', '\t'), ('n', '\n'),
   ('v', '\x0b'), ('f', '\x0c'), ('r', '\r'), ('e', '\x1b'), (' ', ' '), ('"', '"'), ('\\', '\\'),
   ('/', '/'), ('N', '\u0085'), ('_', '\u00a0'), ('L', '\u2028'), ('P', '\u2029')]

/-- The number of hexadecimal digits after a letter. -/
def escapeWidths : List (Char × Nat) := [('x', 2), ('u', 4), ('U', 8)]

def hexValue? (c : Char) : Option Nat :=
  if c.isDigit then some (c.toNat - 48)
  else if ('a' ≤ c && c ≤ 'f') || ('A' ≤ c && c ≤ 'F') then some (c.toLower.toNat - 87)
  else none

/-- What a backslash stands for; the cursor is behind it. -/
def escaped (fuel : Nat) (c : Cursor) : Except Fault (List Char × Cursor) :=
  match c.takeBreak, c.rest with
  | some (_, c), _ => emptyLines fuel c
  | none, [] => .error .badDocument
  | none, ch :: rest =>
    match escapes.lookup ch, escapeWidths.lookup ch with
    | some meant, _ => .ok ([meant], c.skip 1)
    | none, none => .error .badDocument
    | none, some width =>
      match (rest.take width).mapM hexValue? with
      | none => .error .badDocument
      | some digits =>
        if digits.length < width then .error .badDocument
        else
          let code := digits.foldl (fun n d => 16 * n + d) 0
          if code ≥ 0x110000 then .error (.noCharacter code)
          else .ok ([Char.ofNat code], c.skip (width + 1))

/-- A quoted scalar from behind its first quote to behind its last. In single quotes only a doubled
quote is special. -/
def quotedTail (double : Bool) : (fuel : Nat) → Cursor → Except Fault (List Char × Cursor)
  | 0, _ => .error .badDocument
  | fuel + 1, c =>
    let then' (chars : List Char) (c : Cursor) : Except Fault (List Char × Cursor) := do
      let (more, c) ← quotedTail double fuel c
      return (chars ++ more, c)
    match c.rest with
    | [] => .error .badDocument
    | ch :: rest =>
      if !double && ch == '\'' && rest.head? == some '\'' then then' [ch] (c.skip 2)
      else if ch == (if double then '"' else '\'') then .ok ([], c.skip 1)
      else if double && ch == '\\' then do
        let (chars, c) ← escaped fuel (c.skip 1)
        then' chars c
      else if isGap (some ch) then do
        let (chars, c) ← quotedGap fuel c
        then' chars c
      else then' [ch] (c.skip 1)

/-- A quoted scalar. -/
def quotedScalar (c : Cursor) (double : Bool) : Except Fault (String × Cursor) := do
  let (chars, c) ← quotedTail double (c.rest.length + 1) (c.skip 1)
  return (String.ofList chars, c)

/-! ## Unquoted scalars -/

/-- The characters of an unquoted scalar up to the next gap or the next mark that ends it. -/
def plainWord (inFlow : Bool) : List Char → List Char
  | [] => []
  | ch :: rest =>
    let next := rest.head?
    let ends := isGap (some ch) ||
      (ch == ':' && (isGap next || (inFlow && next.any [',', '[', ']', '\x7b', '\x7d'].contains))) ||
      (inFlow && [',', '?', '[', ']', '\x7b', '\x7d'].contains ch)
    if ends then [] else ch :: plainWord inFlow rest

/-- The breaks of the lines that are empty from here on; none once a document begins or ends. -/
def plainBreaks : (fuel : Nat) → Cursor → Option (List Char) × Cursor
  | 0, c => (some [], c)
  | fuel + 1, c =>
    if c.isAtBoundary && c.column == 0 then (none, c)
    else
      let c := c.skipSpaces
      match c.takeBreak with
      | none => (some [], c)
      | some (ch, c) =>
        let (more, c) := plainBreaks fuel c
        (more.map (ch :: ·), c)

/-- The gap behind a word of an unquoted scalar, and whether it holds a line break. -/
def plainGap (c : Cursor) : List Char × Bool × Cursor :=
  let (spaces, c) := c.span (· == ' ')
  match c.takeBreak with
  | none => (spaces, false, c)
  | some (ch, c) =>
    let (more, c) := plainBreaks (c.rest.length + 1) c
    ((more.map (folded ch)).getD [], true, c)

/-- An unquoted scalar, and whether a line break stands behind its last word. -/
def plainTail (inFlow : Bool) (indent : Int) : (fuel : Nat) → (gap : List Char) → Cursor →
    List Char × Bool × Cursor
  | 0, _, c => ([], false, c)
  | fuel + 1, gap, c =>
    let word := plainWord inFlow c.rest
    if word.isEmpty then ([], false, c)
    else
      let (next, broken, after) := plainGap (c.skip word.length)
      if next.isEmpty || after.peek 0 == some '#' || (!inFlow && (after.column : Int) < indent) then
        (gap ++ word, broken, after)
      else
        let (more, brokenLater, end') := plainTail inFlow indent fuel next after
        if more.isEmpty then (gap ++ word, broken, end')
        else (gap ++ word ++ more, brokenLater, end')

/-- An unquoted scalar that may go on in lines from a column on. -/
def plainScalar (c : Cursor) (inFlow : Bool) (indent : Int) : String × Bool × Cursor :=
  let (chars, broken, c) := plainTail inFlow indent (c.rest.length + 1) [] c
  (String.ofList chars, broken, c)

/-! ## Blocks of lines -/

/-- What becomes of the line breaks that end a block. -/
inductive Chomping where
  | strip
  | clip
  | keep
  deriving DecidableEq, Repr

def chompingOf : Option Char → Option Chomping
  | some '+' => some .keep
  | some '-' => some .strip
  | _ => none

def indentOf : Option Char → Option Nat
  | some c => if c.isDigit then some (c.toNat - 48) else none
  | none => none

/-- The marks that may follow the sign of a block, in either order. -/
def blockHeader (c : Cursor) : Except Fault ((Chomping × Option Nat) × Cursor) :=
  let (chomping, indent, c) :=
    match chompingOf (c.peek 0), indentOf (c.peek 0) with
    | some chomping, _ =>
      match indentOf (c.peek 1) with
      | some n => (chomping, some n, c.skip 2)
      | none => (chomping, none, c.skip 1)
    | none, some n =>
      match chompingOf (c.peek 1) with
      | some chomping => (chomping, some n, c.skip 2)
      | none => (.clip, some n, c.skip 1)
    | none, none => (.clip, none, c)
  if indent == some 0 || !(isGap (c.peek 0) && c.peek 0 != some '\t') then .error .badDocument
  else
    let c := c.skipSpaces
    let c := if c.peek 0 == some '#' then c.skipLine else c
    match c.takeBreak with
    | some (_, c) => .ok ((chomping, indent), c)
    | none => if c.rest.isEmpty then .ok ((chomping, indent), c) else .error .badDocument

/-- The empty lines that begin a block, and the widest indentation among them and the first line. -/
def blockIndent : (fuel : Nat) → (widest : Nat) → Cursor → List Char × Nat × Cursor
  | 0, widest, c => ([], widest, c)
  | fuel + 1, widest, c =>
    let c := c.skipSpaces
    let widest := max widest c.column
    match c.takeBreak with
    | none => ([], widest, c)
    | some (ch, c) =>
      let (more, widest, c) := blockIndent fuel widest c
      (ch :: more, widest, c)

/-- The empty lines inside a block. -/
def blockBreaks (indent : Nat) : (fuel : Nat) → Cursor → List Char × Cursor
  | 0, c => ([], c)
  | fuel + 1, c =>
    let c := c.skipIndent indent
    match c.takeBreak with
    | none => ([], c)
    | some (ch, c) =>
      let (more, c) := blockBreaks indent fuel c
      (ch :: more, c)

/-- What stands between two lines of a block. Folding turns a single break between two lines that
begin with text into a space. -/
def between (fold : Bool) (line next : Option Char) (ch : Char) (empty : List Char) : List Char :=
  let isText (c : Option Char) : Bool := c != some ' ' && c != some '\t'
  if fold && ch == '\n' && isText line && isText next then
    (if empty.isEmpty then [' '] else empty)
  else ch :: empty

/-- The lines of a block, from one that has the indentation. -/
def blockLines (fold : Bool) (chomping : Chomping) (indent : Nat) : (fuel : Nat) → Cursor →
    List Char × Cursor
  | 0, c => ([], c)
  | fuel + 1, c =>
    let first := c.peek 0
    let (line, c) := c.span fun ch => !isBreak ch
    match c.takeBreak with
    | none => (line, c)
    | some (ch, c) =>
      let (empty, c) := blockBreaks indent (c.rest.length + 1) c
      if c.column == indent && !c.rest.isEmpty then
        let (more, after) := blockLines fold chomping indent fuel c
        (line ++ between fold first (c.peek 0) ch empty ++ more, after)
      else
        let ending := match chomping with
          | .strip => []
          | .clip => [ch]
          | .keep => ch :: empty
        (line ++ ending, c)

/-- A block of lines that are indented by more than `outer`; the cursor is at its sign. -/
def blockScalar (c : Cursor) (fold : Bool) (outer : Int) : Except Fault (String × Cursor) := do
  let ((chomping, increment), c) ← (c.skip 1).blockHeader
  let least := (max (outer + 1) 1).toNat
  let fuel := c.rest.length + 1
  let (empty, indent, c) :=
    match increment with
    | some n =>
      let indent := least + n - 1
      let (empty, c) := blockBreaks indent fuel c
      (empty, indent, c)
    | none =>
      let (empty, widest, c) := blockIndent fuel 0 c
      (empty, max least widest, c)
  if c.column == indent && !c.rest.isEmpty then
    let (lines, c) := blockLines fold chomping indent fuel c
    return (String.ofList (empty ++ lines), c)
  else return (String.ofList (if chomping == .keep then empty else []), c)

end Cursor

end Attest.Document
