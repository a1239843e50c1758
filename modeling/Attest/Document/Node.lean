import Attest.Document.Scalar
import Attest.Document.Token

/-!
# Nodes of documents

A settings document as a graph of nodes: scalars, sequences and mappings, in blocks by indentation
or in brackets. Every node has a type, by its tag or by its form. A node may have a name, and where
the name is called the node itself stands again, even inside of itself.

* `Graph.ofText`: the nodes of a text, and the one that the document is.
-/

namespace Attest.Document

/-- A node by its number in the graph. -/
abbrev NodeId := Nat

inductive Content where
  | scalar (text : String)
  | sequence (items : List NodeId)
  | mapping (entries : List (NodeId × NodeId))
  deriving Repr

structure Node where
  tag : Tag
  content : Content
  deriving Repr

/-- The nodes of a document. -/
abbrev Graph := Array Node

/-- How many collections may stand inside of each other. -/
def nestingLimit : Nat := 488

/-- What is known on the way through the tokens. -/
structure Reading where
  scan : Scan
  nodes : Graph
  /-- The nodes that have names. -/
  names : List (String × NodeId)
  /-- What the handles of tags stand for. -/
  handles : List (String × String)

abbrev Reader := StateT Reading (Except Fault)

namespace Reader

def fail {α : Type} : Reader α := throw .badDocument

/-- The next token. -/
def peek : Reader Token := do
  let scan ← (← get).scan.ready
  modify fun r => { r with scan }
  return scan.tokens.headD .streamEnd

/-- Passes over the next token, which has been looked at. -/
def next : Reader Unit := do
  let r ← get
  let scan := { r.scan with tokens := r.scan.tokens.tail, taken := r.scan.taken + 1 }
  set { r with scan }

/-- Whether the next token is one of some. -/
def isAt (tokens : List Token) : Reader Bool := do return tokens.contains (← peek)

/-- Passes over a token that must be there. -/
def expect (t : Token) : Reader Unit := do
  if ← isAt [t] then next else fail

/-- A new node. -/
def create (tag : Tag) (content : Content) : Reader NodeId := do
  let r ← get
  set { r with nodes := r.nodes.push ⟨tag, content⟩ }
  return r.nodes.size

/-- Gives a node its content, once that is known. -/
def fill (id : NodeId) (content : Content) : Reader Unit :=
  modify fun r => { r with nodes := r.nodes.modify id fun n => { n with content } }

/-- Gives a node its name. -/
def name (anchor : Option String) (id : NodeId) : Reader Unit :=
  match anchor with
  | none => return
  | some name => modify fun r => { r with names := (name, id) :: r.names }

end Reader

open Reader

/-- The type that a tag names; none if there is no tag, or one that leaves the type open. -/
def tagOf (tag : Option TagName) : Reader (Option Tag) := do
  match tag with
  | none => return none
  | some tag =>
    match tag.resolve? (← get).handles with
    | none => fail
    | some "!" => return none
    | some name => return some (Tag.ofName name)

/-- The name in front of a node, if one stands here. -/
def anchor? : Reader (Option String) := do
  match ← peek with
  | .anchor name => next; return some name
  | _ => return none

/-- The tag in front of a node, if one stands here. -/
def tag? : Reader (Option TagName) := do
  match ← peek with
  | .tag name => next; return some name
  | _ => return none

/-- The name and the tag in front of a node, in either order. -/
def properties : Reader (Option String × Option TagName) := do
  match ← anchor? with
  | some name => return (some name, ← tag?)
  | none =>
    match ← tag? with
    | some tag => return (← anchor?, some tag)
    | none => return (none, none)

/-- A node without any content. -/
def blank : Reader NodeId := create .null (.scalar "")

/-- Where a node may stand: in a block, in a block as part of an entry, or in brackets. -/
inductive Place where
  | block
  | inEntry
  | flow
  deriving DecidableEq

mutual

/-- A node inside of `depth` collections. -/
def node : (fuel : Nat) → (depth : Nat) → Place → Reader NodeId
  | 0, _, _ => fail
  | fuel + 1, depth, place => do
    match ← peek with
    | .alias name =>
      next
      match (← get).names.lookup name with
      | some id => return id
      | none => fail
    | _ =>
      let (anchor, tagName) ← properties
      let tag ← tagOf tagName
      let refuseTwice : Reader Unit := do
        if (anchor.bind ((← get).names.lookup ·)).isSome then fail
      let scalar (tag : Tag) (text : String) : Reader NodeId := do
        refuseTwice
        let id ← create tag (.scalar text)
        name anchor id
        return id
      let collection (tag : Tag) (content : Reader Content) : Reader NodeId := do
        refuseTwice
        if depth ≥ nestingLimit then throw .endless
        let id ← create tag (.sequence [])
        name anchor id
        fill id (← content)
        return id
      let sequence := collection (tag.getD .sequence)
      let mapping := collection (tag.getD .mapping)
      match ← peek, place with
      | .entry, .inEntry => sequence (return .sequence (← indentlessItems fuel (depth + 1)))
      | .scalar text plain, _ =>
        next
        -- a tag that leaves the type open lets the form decide, as if there were no quotes
        let byForm := if plain || tagName.isSome then Tag.ofForm text else .text
        scalar (tag.getD byForm) text
      | .flowSequenceStart, _ =>
        sequence (do next; return .sequence (← flowItems fuel (depth + 1) true))
      | .flowMappingStart, _ =>
        mapping (do next; return .mapping (← flowEntries fuel (depth + 1) true))
      | .sequenceStart, .block | .sequenceStart, .inEntry =>
        sequence (do next; return .sequence (← blockItems fuel (depth + 1)))
      | .mappingStart, .block | .mappingStart, .inEntry =>
        mapping (do next; return .mapping (← blockEntries fuel (depth + 1)))
      | _, _ =>
        if anchor.isNone && tagName.isNone then fail
        else scalar (tag.getD .null) ""

/-- A node, or nothing in front of one of some tokens. -/
def nodeUnless : (fuel : Nat) → (depth : Nat) → (stops : List Token) → Place → Reader NodeId
  | 0, _, _, _ => fail
  | fuel + 1, depth, stops, place => do
    if ← isAt stops then blank else node fuel depth place

/-- The items of a block, up to its end. -/
def blockItems : (fuel : Nat) → (depth : Nat) → Reader (List NodeId)
  | 0, _ => fail
  | fuel + 1, depth => do
    if ← isAt [.entry] then
      next
      let item ← nodeUnless fuel depth [.entry, .blockEnd] .block
      return item :: (← blockItems fuel depth)
    else
      expect .blockEnd
      return []

/-- The items in an entry that are not indented further than its key. -/
def indentlessItems : (fuel : Nat) → (depth : Nat) → Reader (List NodeId)
  | 0, _ => fail
  | fuel + 1, depth => do
    if ← isAt [.entry] then
      next
      let item ← nodeUnless fuel depth [.entry, .key, .value, .blockEnd] .block
      return item :: (← indentlessItems fuel depth)
    else return []

/-- What stands behind the mark of a value, if the mark is there. -/
def valueOf : (fuel : Nat) → (depth : Nat) → (stops : List Token) → Place → Reader NodeId
  | 0, _, _, _ => fail
  | fuel + 1, depth, stops, place => do
    if ← isAt [.value] then do next; nodeUnless fuel depth stops place
    else blank

/-- The entries of a block, up to its end. -/
def blockEntries : (fuel : Nat) → (depth : Nat) → Reader (List (NodeId × NodeId))
  | 0, _ => fail
  | fuel + 1, depth => do
    let stops := [.key, .value, .blockEnd]
    if ← isAt [.key] then
      next
      let key ← nodeUnless fuel depth stops .inEntry
      let value ← valueOf fuel depth stops .inEntry
      return (key, value) :: (← blockEntries fuel depth)
    else
      expect .blockEnd
      return []

/-- The items in brackets, up to the closing one. A key among them makes a mapping of one entry. -/
def flowItems : (fuel : Nat) → (depth : Nat) → (first : Bool) → Reader (List NodeId)
  | 0, _, _ => fail
  | fuel + 1, depth, first => do
    if ← isAt [.flowSequenceEnd] then next; return []
    if !first then expect .comma
    if ← isAt [.flowSequenceEnd] then next; return []
    let item ←
      if ← isAt [.key] then do
        let id ← create .mapping (.sequence [])
        next
        let key ← nodeUnless fuel (depth + 1) [.value, .comma, .flowSequenceEnd] .flow
        let value ← valueOf fuel (depth + 1) [.comma, .flowSequenceEnd] .flow
        fill id (.mapping [(key, value)])
        pure id
      else node fuel depth .flow
    return item :: (← flowItems fuel depth false)

/-- The entries in braces, up to the closing one. -/
def flowEntries : (fuel : Nat) → (depth : Nat) → (first : Bool) → Reader (List (NodeId × NodeId))
  | 0, _, _ => fail
  | fuel + 1, depth, first => do
    if ← isAt [.flowMappingEnd] then next; return []
    if !first then expect .comma
    if ← isAt [.flowMappingEnd] then next; return []
    let entry ←
      if ← isAt [.key] then do
        next
        let key ← nodeUnless fuel depth [.value, .comma, .flowMappingEnd] .flow
        let value ← valueOf fuel depth [.comma, .flowMappingEnd] .flow
        pure (key, value)
      else do pure (← node fuel depth .flow, ← blank)
    return entry :: (← flowEntries fuel depth false)

end

/-- The directives in front of a document. The version must be one that is known, and is given once,
as is every handle. -/
def directives : (fuel : Nat) → (version : Option Nat) → (handles : List (String × String)) →
    Reader (List (String × String))
  | 0, _, _ => fail
  | fuel + 1, version, handles => do
    match ← peek with
    | .version major =>
      next
      if version.isSome || major != 1 then fail
      directives fuel (some major) handles
    | .handle handle front =>
      next
      if (handles.lookup handle).isSome then fail
      directives fuel version ((handle, front) :: handles)
    | .directive => next; directives fuel version handles
    | _ => return handles

/-- Passes over the marks where a document ends. -/
def skipEnds : (fuel : Nat) → Reader Unit
  | 0 => fail
  | fuel + 1 => do
    if ← isAt [.documentEnd] then next; skipEnds fuel

/-- The one document of a text, with or without a mark where it starts; none if there is nothing. -/
def document (fuel : Nat) : Reader (Option NodeId) := do
  let root ←
    match ← peek with
    | .streamEnd => pure none
    | .version _ | .handle _ _ | .directive | .documentStart => do
      let handles ← directives fuel none []
      modify fun r => { r with handles := handles ++ standardHandles }
      expect .documentStart
      let marks ← peek
      match marks with
      | .version _ | .handle _ _ | .directive => pure (some (← blank))
      | _ => pure (some (← nodeUnless fuel 0 [.documentStart, .documentEnd, .streamEnd] .block))
    | _ => pure (some (← node fuel 0 .block))
  skipEnds fuel
  if ← isAt [.streamEnd] then return root
  else do
    -- a second document is a mistake, but a mistake in its directives comes first
    let _ ← directives fuel none []
    fail

/-- The nodes of a text, and the one that the document is; a text that says nothing has none. -/
def Graph.ofText (text : String) : Except Fault (Option NodeId × Graph) :=
  if text.toList.all isAllowed then do
    let fuel := 16 * text.length + 64
    let (root, r) ← (document fuel).run ⟨Scan.ofText text, #[], [], standardHandles⟩
    return (root, r.nodes)
  else .error .badDocument

end Attest.Document
