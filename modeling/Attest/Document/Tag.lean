import Attest.Document.Cursor
import Attest.Number.Written

/-!
# Tags

The types that nodes of a document can have, and the ways to name one: by a handle that stands for
the front of a name, by the whole name in angle brackets, or not at all. A directive at the top of a
document says what a handle stands for. In a name a percent sign and two digits stand for a byte.
-/

namespace Attest.Document

/-- The type of a node. -/
inductive Tag where
  | null
  | truth
  | integer
  | float
  | binary
  | stamp
  | orderedMap
  | pairs
  | set
  | text
  | sequence
  | mapping
  /-- The key whose value is merged into the mapping. -/
  | merge
  /-- The key of the value that a mapping stands for. -/
  | value
  /-- A type that nothing is known about. -/
  | other (name : String)
  deriving DecidableEq, Repr

/-- The front that the names of all known types share. -/
def knownFront : String := "tag:yaml.org,2002:"

/-- The known types by the ends of their names. -/
def knownTags : List (String × Tag) :=
  [("null", .null), ("bool", .truth), ("int", .integer), ("float", .float), ("binary", .binary),
   ("timestamp", .stamp), ("omap", .orderedMap), ("pairs", .pairs), ("set", .set), ("str", .text),
   ("seq", .sequence), ("map", .mapping), ("merge", .merge), ("value", .value)]

/-- The type of a name. -/
def Tag.ofName (name : String) : Tag :=
  match knownTags.find? fun (ending, _) => name == knownFront ++ ending with
  | some (_, tag) => tag
  | none => .other name

/-- What stands for a type in the text of a document. -/
inductive TagName where
  /-- Only that the node has the type that its form gives it. -/
  | plain
  | whole (name : String)
  | short (handle ending : String)
  deriving DecidableEq, Repr

/-- The handles that every document knows, with what they stand for. -/
def standardHandles : List (String × String) := [("!", "!"), ("!!", knownFront)]

/-- The name that is meant, if its handle is known. -/
def TagName.resolve? (handles : List (String × String)) : TagName → Option String
  | .plain => some "!"
  | .whole name => some name
  | .short handle ending => (handles.lookup handle).map (· ++ ending)

namespace Cursor

/-- The characters of handles, directives and the names of nodes. -/
def isNameChar (c : Char) : Bool := c.isAlphanum || c == '-' || c == '_'

/-- The characters of the names of types. -/
def isTagChar (c : Char) : Bool := c.isAlphanum || "-;/?:@&=+$,_.!~*'()[]%".toList.contains c

/-- A handle: an exclamation mark alone, or a name between two. -/
def tagHandle (c : Cursor) : Except Fault (String × Cursor) :=
  match c.rest with
  | '!' :: ' ' :: _ => .ok ("!", c.skip 1)
  | '!' :: rest =>
    let name := rest.takeWhile isNameChar
    match rest.drop name.length with
    | '!' :: _ => .ok ("!" ++ String.ofList name ++ "!", c.skip (name.length + 2))
    | _ => .error .badDocument
  | _ => .error .badDocument

/-- The bytes that percent signs stand for from here on. -/
def escapedBytes : List Char → Except Fault (List UInt8)
  | '%' :: a :: b :: rest =>
    match hexValue? a, hexValue? b with
    | some high, some low => do return UInt8.ofNat (16 * high + low) :: (← escapedBytes rest)
    | _, _ => .error .badDocument
  | '%' :: _ => .error .badDocument
  | _ => .ok []

/-- A name with its escapes replaced, where each run of escapes is the text of its bytes. -/
def tagChars : (fuel : Nat) → List Char → Except Fault (List Char)
  | 0, _ => .error .badDocument
  | fuel + 1, chars =>
    match chars with
    | [] => .ok []
    | '%' :: _ => do
      let bytes ← escapedBytes chars
      match String.fromUTF8? (ByteArray.mk bytes.toArray) with
      | some text => return text.toList ++ (← tagChars fuel (chars.drop (3 * bytes.length)))
      | none => throw .badDocument
    | c :: rest => do return c :: (← tagChars fuel rest)

/-- The name of a type, or the end of one. -/
def tagText (c : Cursor) : Except Fault (String × Cursor) := do
  let (chars, c) := c.span isTagChar
  if chars.isEmpty then throw .badDocument
  return (String.ofList (← tagChars (chars.length + 1) chars), c)

/-- Whether a space, a line break or the end stands here. -/
def isAtSpace (c : Cursor) : Bool := isGap (c.peek 0) && c.peek 0 != some '\t'

/-- What names the type of a node; the cursor is at its exclamation mark. -/
def tagName (c : Cursor) : Except Fault (TagName × Cursor) := do
  let (name, c) ←
    match c.peek 1 with
    | some '<' => do
      let (name, c) ← (c.skip 2).tagText
      if c.peek 0 != some '>' then throw .badDocument
      pure (TagName.whole name, c.skip 1)
    | next =>
      if isGap next then pure (TagName.plain, c.skip 1)
      else do
        let word := (c.rest.drop 1).takeWhile fun ch => !isGap (some ch) || ch == '\t'
        let (handle, c) ← if word.contains '!' then c.tagHandle else pure ("!", c.skip 1)
        let (ending, c) ← c.tagText
        pure (TagName.short handle ending, c)
  if c.isAtSpace then return (name, c) else throw .badDocument

end Cursor

end Attest.Document
