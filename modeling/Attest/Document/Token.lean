import Attest.Document.Tag

/-!
# Tokens of documents

A settings document as a stream of tokens. Indentation is made explicit: a column further to the
right opens a block, and every return to the left closes the blocks that began there. What a colon
makes a key is known only behind it, so a place is remembered for every text that may turn out to be
one. The text is read no further than the next token needs, so that of two mistakes the first one
counts.

* `Scan.ready`: reads on until it is certain what the next token is.
-/

namespace Attest.Document

inductive Token where
  /-- The version of the notation, of which only the first number matters. -/
  | version (major : Nat)
  /-- What a handle of tags stands for. -/
  | handle (handle front : String)
  /-- A directive that nothing is known about. -/
  | directive
  | documentStart
  | documentEnd
  | sequenceStart
  | mappingStart
  | blockEnd
  | flowSequenceStart
  | flowSequenceEnd
  | flowMappingStart
  | flowMappingEnd
  /-- A hyphen in front of an item. -/
  | entry
  | comma
  | key
  | value
  | alias (name : String)
  | anchor (name : String)
  | tag (name : TagName)
  | scalar (text : String) (plain : Bool)
  | streamEnd
  deriving DecidableEq, Repr

/-- A place where a key may have begun. -/
structure KeyPlace where
  /-- The number of flow collections around it. -/
  flow : Nat
  /-- The number of tokens in front of it, those already taken included. -/
  tokens : Nat
  /-- Whether nothing but a key can stand there. -/
  required : Bool
  index : Nat
  line : Nat
  column : Nat

/-- What is known on the way through a document. -/
structure Scan where
  /-- The number of characters of the text. -/
  size : Nat
  cursor : Cursor
  /-- The tokens that were read and not yet taken. -/
  tokens : List Token
  /-- The number of tokens already taken. -/
  taken : Nat
  /-- The number of flow collections around the cursor. -/
  flow : Nat
  /-- The column of the innermost block; -1 if there is none. -/
  indent : Int
  /-- The columns of the blocks around it, from the inside. -/
  outer : List Int
  keyAllowed : Bool
  places : List KeyPlace
  /-- Whether the end of the text has been read. -/
  isDone : Bool

namespace Scan

/-- The scan of a text from its start; a byte order mark is passed over. -/
def ofText (text : String) : Scan :=
  let c := Cursor.ofText text
  let start := if c.peek 0 == some '\ufeff' then c.skip 1 else c
  ⟨c.rest.length, start, [], 0, 0, -1, [], true, [], false⟩

def column (s : Scan) : Int := s.cursor.column

def inFlow (s : Scan) : Bool := s.flow != 0

def emit (s : Scan) (t : Token) : Scan := { s with tokens := s.tokens ++ [t] }

def skip (s : Scan) (count : Nat) : Scan := { s with cursor := s.cursor.skip count }

/-- Passes over spaces, comments and line breaks. A new line may begin with a key. -/
def skipGaps : (fuel : Nat) → Scan → Scan
  | 0, s => s
  | fuel + 1, s =>
    let c := s.cursor.skipSpaces
    let c := if c.peek 0 == some '#' then c.skipLine else c
    match c.takeBreak with
    | none => { s with cursor := c }
    | some (_, c) => skipGaps fuel { s with cursor := c, keyAllowed := s.keyAllowed || !s.inFlow }

/-- Forgets the places of keys that have passed: a key is on one line, and not too long. -/
def forgetStale (s : Scan) : Except Fault Scan :=
  let isStale (p : KeyPlace) : Bool :=
    p.line != s.cursor.line || s.cursor.index - p.index > 1024
  if s.places.any fun p => isStale p && p.required then .error .badDocument
  else .ok { s with places := s.places.filter fun p => !isStale p }

/-- Forgets the place of a key at this level. -/
def forgetPlace (s : Scan) : Except Fault Scan :=
  if s.places.any fun p => p.flow == s.flow && p.required then .error .badDocument
  else .ok { s with places := s.places.filter fun p => p.flow != s.flow }

/-- Remembers that a key may begin here. -/
def rememberPlace (s : Scan) : Except Fault Scan :=
  if s.keyAllowed then do
    let s ← s.forgetPlace
    let c := s.cursor
    let required := !s.inFlow && s.indent == s.column
    return { s with
      places :=
        ⟨s.flow, s.taken + s.tokens.length, required, c.index, c.line, c.column⟩ :: s.places }
  else .ok s

/-- Closes the blocks that began to the right of a column. -/
def closeBlocks (s : Scan) (column : Int) : Scan :=
  if s.inFlow then s
  else
    let columns := s.indent :: s.outer
    let closed := columns.takeWhile (· > column)
    match columns.drop closed.length with
    | [] => { s with tokens := s.tokens ++ closed.map fun _ => .blockEnd, indent := -1, outer := [] }
    | indent :: outer =>
      { s with tokens := s.tokens ++ closed.map fun _ => .blockEnd, indent, outer }

/-- Puts a token in front of those that were read from a place on. -/
def insert (s : Scan) (place : Nat) (t : Token) : Scan :=
  { s with tokens := s.tokens.insertIdx (place - s.taken) t }

/-- Opens a block at a column, with a token at a place, if it lies to the right of the current
one. -/
def openBlock (s : Scan) (column : Int) (place : Nat) (t : Token) : Scan :=
  if s.indent < column then
    { s.insert place t with indent := column, outer := s.indent :: s.outer }
  else s

/-! ## One token -/

/-- A mark between documents. -/
def boundary (s : Scan) (t : Token) : Except Fault Scan := do
  let s ← (s.closeBlocks (-1)).forgetPlace
  return { (s.emit t).skip 3 with keyAllowed := false }

/-- The digits of a number of the version. -/
def versionNumber (c : Cursor) : Except Fault (Nat × Cursor) :=
  let (digits, c) := c.span Char.isDigit
  if digits.isEmpty then .error .badDocument
  else if digits.length > Number.digitLimit then .error (.tooManyDigitsRead digits.length)
  else .ok (Number.digitsValue digits, c)

/-- The version of the notation: two numbers with a point between them. -/
def version (c : Cursor) : Except Fault (Token × Cursor) := do
  let (major, c) ← versionNumber c.skipSpaces
  if c.peek 0 != some '.' then throw .badDocument
  let (_, c) ← versionNumber (c.skip 1)
  if c.isAtSpace then return (.version major, c) else throw .badDocument

/-- A handle and what it stands for. -/
def handle (c : Cursor) : Except Fault (Token × Cursor) := do
  let (handle, c) ← c.skipSpaces.tagHandle
  if c.peek 0 != some ' ' then throw .badDocument
  let (front, c) ← c.skipSpaces.tagText
  if c.isAtSpace then return (.handle handle front, c) else throw .badDocument

/-- A line with a directive. -/
def directive (s : Scan) : Except Fault Scan := do
  let s ← (s.closeBlocks (-1)).forgetPlace
  let (name, c) := (s.cursor.skip 1).span Cursor.isNameChar
  if name.isEmpty || !c.isAtSpace then throw .badDocument
  let (t, c) ←
    match String.ofList name with
    | "YAML" => version c
    | "TAG" => handle c
    | _ => pure (Token.directive, c.skipLine)
  let c := c.skipSpaces
  let c := if c.peek 0 == some '#' then c.skipLine else c
  match c.takeBreak, c.rest with
  | some (_, c), _ => return { s.emit t with keyAllowed := false, cursor := c }
  | none, [] => return { s.emit t with keyAllowed := false, cursor := c }
  | none, _ => throw .badDocument

def openFlow (s : Scan) (t : Token) : Except Fault Scan := do
  let s ← s.rememberPlace
  return { (s.emit t).skip 1 with flow := s.flow + 1, keyAllowed := true }

def closeFlow (s : Scan) (t : Token) : Except Fault Scan := do
  let s ← s.forgetPlace
  if s.flow == 0 then throw .badDocument
  return { (s.emit t).skip 1 with flow := s.flow - 1, keyAllowed := false }

def comma (s : Scan) : Except Fault Scan := do
  let s ← s.forgetPlace
  return { (s.emit .comma).skip 1 with keyAllowed := true }

/-- A hyphen in front of an item, or a question mark in front of a key. -/
def indicator (s : Scan) (block t : Token) (keyAllowed : Bool) : Except Fault Scan := do
  let s ←
    if s.inFlow then pure s
    else if s.keyAllowed then pure (s.openBlock s.column (s.taken + s.tokens.length) block)
    else throw .badDocument
  let s ← s.forgetPlace
  return { (s.emit t).skip 1 with keyAllowed }

/-- A colon behind a key. -/
def valueMark (s : Scan) : Except Fault Scan := do
  match s.places.find? fun p => p.flow == s.flow with
  | some p =>
    let s := { s.insert p.tokens .key with
      places := s.places.filter fun q => q.flow != s.flow
      keyAllowed := false }
    let s := if s.inFlow then s else s.openBlock p.column p.tokens .mappingStart
    return (s.emit .value).skip 1
  | none => s.indicator .mappingStart .value (!s.inFlow)

/-- A name behind a mark. -/
def named (s : Scan) (t : String → Token) : Except Fault Scan := do
  let s ← s.rememberPlace
  let (name, c) := (s.cursor.skip 1).span Cursor.isNameChar
  let next := c.peek 0
  if name.isEmpty then throw .badDocument
  if isGap next || next.any ['?', ':', ',', ']', '\x7d', '%', '@', '\x60'].contains then
    return { s.emit (t (String.ofList name)) with cursor := c, keyAllowed := false }
  else throw .badDocument

def tagMark (s : Scan) : Except Fault Scan := do
  let s ← s.rememberPlace
  let (name, c) ← s.cursor.tagName
  return { s.emit (.tag name) with cursor := c, keyAllowed := false }

def block (s : Scan) (fold : Bool) : Except Fault Scan := do
  let s ← s.forgetPlace
  let (text, c) ← s.cursor.blockScalar fold s.indent
  return { s.emit (.scalar text false) with cursor := c, keyAllowed := true }

def quoted (s : Scan) (double : Bool) : Except Fault Scan := do
  let s ← s.rememberPlace
  let (text, c) ← s.cursor.quotedScalar double
  return { s.emit (.scalar text false) with cursor := c, keyAllowed := false }

def plain (s : Scan) : Except Fault Scan := do
  let s ← s.rememberPlace
  let (text, broken, c) := s.cursor.plainScalar s.inFlow (s.indent + 1)
  return { s.emit (.scalar text true) with cursor := c, keyAllowed := broken }

/-- Whether an unquoted scalar can begin here. -/
def isPlainStart (s : Scan) (ch : Char) : Bool :=
  let marks := "-?:,[]\x7b\x7d#&*!|>'\"%@\x60".toList
  !(isGap (some ch) || marks.contains ch) ||
    (!isGap (s.cursor.peek 1) && (ch == '-' || (!s.inFlow && (ch == '?' || ch == ':'))))

/-- Reads the token at the cursor, which is at its first character. -/
def step (s : Scan) (ch : Char) : Except Fault Scan :=
  let gapNext := isGap (s.cursor.peek 1)
  let atStart := s.cursor.column == 0
  if ch == '%' && atStart then s.directive
  else if atStart && s.cursor.isAtMark '-' then s.boundary .documentStart
  else if atStart && s.cursor.isAtMark '.' then s.boundary .documentEnd
  else
    match ch with
    | '[' => s.openFlow .flowSequenceStart
    | '\x7b' => s.openFlow .flowMappingStart
    | ']' => s.closeFlow .flowSequenceEnd
    | '\x7d' => s.closeFlow .flowMappingEnd
    | ',' => s.comma
    | '*' => s.named .alias
    | '&' => s.named .anchor
    | '!' => s.tagMark
    | '\'' => s.quoted false
    | '"' => s.quoted true
    | _ =>
      if ch == '-' && gapNext then s.indicator .sequenceStart .entry true
      else if ch == '?' && (s.inFlow || gapNext) then
        s.indicator .mappingStart .key (!s.inFlow)
      else if ch == ':' && (s.inFlow || gapNext) then s.valueMark
      else if ch == '|' && !s.inFlow then s.block false
      else if ch == '>' && !s.inFlow then s.block true
      else if s.isPlainStart ch then s.plain
      else .error .badDocument

/-- Reads one token more, and those in front of it that it implies. -/
def more (s : Scan) : Except Fault Scan := do
  let s ← (s.skipGaps (s.size + 1)).forgetStale
  let s := s.closeBlocks s.column
  match s.cursor.rest with
  | [] =>
    let s ← (s.closeBlocks (-1)).forgetPlace
    return { s.emit .streamEnd with keyAllowed := false, places := [], isDone := true }
  | ch :: _ => s.step ch

/-- Whether a key may begin in front of the next token. -/
def isPending (s : Scan) : Bool := s.places.any (·.tokens == s.taken)

/-- Reads on until it is certain what the next token is. Every token passes over a character, or
over the end. -/
def readyWithin : (fuel : Nat) → Scan → Except Fault Scan
  | 0, s => .ok s
  | fuel + 1, s => do
    if s.isDone then return s
    if s.tokens.isEmpty then readyWithin fuel (← s.more)
    else
      let s ← s.forgetStale
      if s.isPending then readyWithin fuel (← s.more) else return s

/-- Reads on until it is certain what the next token is. -/
def ready (s : Scan) : Except Fault Scan := s.readyWithin (s.size + 2)

end Scan

end Attest.Document
