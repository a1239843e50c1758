import Attest.Document.Node
import Attest.Value.Equality

/-!
# What documents mean

The value of a graph of nodes. Scalars are read where they are met; collections are opened where
they are met and filled generation by generation, so that a collection may hold itself. A mapping
may take over the entries of others before it is filled.

* `read`: the value of a document, null for an empty one.
-/

namespace Attest.Document

/-- What is known of the value of a node. -/
inductive Shape where
  | whole (v : Value)
  | list (items : List NodeId)
  | pairs (items : List (NodeId × NodeId))
  | map (entries : List (Value × NodeId))
  | set (items : List Value)

instance : Inhabited Node := ⟨⟨.null, .scalar ""⟩⟩

/-- The nodes of a document, what their values are as far as it is known, and the collections that
are open but not filled, the newest last. -/
structure Workshop where
  nodes : Graph
  shapes : Array (Option Shape)
  waiting : List NodeId

abbrev Construction := StateT Workshop (Except Fault)

namespace Construction

def fail {α : Type} : Construction α := throw .badDocument

def nodeAt (id : NodeId) : Construction Node := do return (← get).nodes.getD id default

def setShape (id : NodeId) (shape : Shape) : Construction Unit :=
  modify fun w => { w with shapes := w.shapes.set! id (some shape) }

/-- The text that a node gives to a type of scalars: its own, or that under the key of the value. -/
def scalarText : (fuel : Nat) → NodeId → Construction String
  | 0, _ => throw .endless
  | fuel + 1, id => do
    match (← nodeAt id).content with
    | .scalar text => return text
    | .sequence _ => fail
    | .mapping entries =>
      let nodes := (← get).nodes
      match entries.find? fun (key, _) => (nodes.getD key default).tag == .value with
      | some (_, value) => scalarText fuel value
      | none => fail

/-- Whether a type is one of collections. -/
def isCollection : Tag → Bool
  | .orderedMap | .pairs | .set | .sequence | .mapping => true
  | _ => false

/-- Makes sure that the value of a scalar is known, and that a collection is open. -/
def meet (id : NodeId) : Construction Unit := do
  let w ← get
  if (w.shapes.getD id none).isSome then return
  let tag := (← nodeAt id).tag
  if isCollection tag then
    setShape id (.list [])
    modify fun w => { w with waiting := w.waiting ++ [id] }
  else
    match tag with
    | .other _ | .merge | .value => fail
    | _ =>
      let text ← scalarText (w.nodes.size + 1) id
      match tag, (← nodeAt id).content with
      -- a moment is looked for in the node itself
      | .stamp, .mapping _ => throw (.notSearchable "list")
      | _, _ => setShape id (.whole (← readScalar tag text))

/-! ## Merging -/

def setEntries (id : NodeId) (entries : List (NodeId × NodeId)) : Construction Unit :=
  modify fun w => { w with nodes := w.nodes.modify id fun n => { n with content := .mapping entries } }

/-- The entries of a mapping. -/
def entriesOf (id : NodeId) : Construction (List (NodeId × NodeId)) := do
  match (← nodeAt id).content with
  | .mapping entries => return entries
  | _ => fail

/-- Makes the keys of the value in a mapping into texts. -/
def settleKeys (id : NodeId) : Construction Unit := do
  for (key, _) in ← entriesOf id do
    if (← nodeAt key).tag == .value then
      modify fun w => { w with nodes := w.nodes.modify key fun n => { n with tag := .text } }

mutual

/-- The entries of a mapping, those that it takes over in front of its own. From then on they are
all its own. -/
def flatten : (fuel : Nat) → NodeId → Construction (List (NodeId × NodeId))
  | 0, _ => throw .endless
  | fuel + 1, id => do
    let merged ← takeMerged fuel id
    settleKeys id
    if !merged.isEmpty then setEntries id (merged ++ (← entriesOf id))
    entriesOf id

/-- Takes all merging entries out of a mapping; answers what they bring. An entry is gone before it
is followed, so a mapping that takes over itself comes to an end. -/
def takeMerged : (fuel : Nat) → NodeId → Construction (List (NodeId × NodeId))
  | 0, _ => throw .endless
  | fuel + 1, id => do
    let entries ← entriesOf id
    let nodes := (← get).nodes
    match entries.findIdx? fun (key, _) => (nodes.getD key default).tag == .merge with
    | none => return []
    | some index =>
      setEntries id (entries.eraseIdx index)
      let (_, value) := entries.getD index (0, 0)
      let found ←
        match (← nodeAt value).content with
        | .mapping _ => flatten fuel value
        | .sequence items => do
          let parts ← items.mapM fun item => do
            let _ ← entriesOf item
            flatten fuel item
          pure parts.reverse.flatten
        | .scalar _ => fail
      return found ++ (← takeMerged fuel id)

end

/-! ## Filling -/

/-- Sets the value under a key. Undefined numbers are all one key. -/
def insertKey (key : Value) (id : NodeId) : List (Value × NodeId) → List (Value × NodeId)
  | [] => [(key, id)]
  | (k, i) :: rest =>
    let isUndefined : Value → Bool
      | .float x => Number.isNan x
      | _ => false
    if k.same key || (isUndefined k && isUndefined key) then (k, id) :: rest
    else (k, i) :: insertKey key id rest

/-- The entries of a mapping by the values of its keys. -/
def keyed (fuel : Nat) (id : NodeId) : Construction (List (Value × NodeId)) := do
  let _ ← entriesOf id
  (← flatten fuel id).foldlM
    (fun entries (key, value) => do
      meet key
      match (← get).shapes.getD key none with
      | some (.whole k) =>
        meet value
        return insertKey k value entries
      | _ => fail)
    []

/-- The one entry of a mapping that has no more. -/
def singleEntry (id : NodeId) : Construction (NodeId × NodeId) := do
  match (← nodeAt id).content with
  | .mapping [(key, value)] =>
    meet key
    meet value
    return (key, value)
  | _ => fail

/-- The items of a sequence. -/
def itemsOf (id : NodeId) : Construction (List NodeId) := do
  match (← nodeAt id).content with
  | .sequence items => return items
  | _ => fail

/-- Fills an open collection. -/
def fill (fuel : Nat) (id : NodeId) : Construction Unit := do
  match (← nodeAt id).tag with
  | .orderedMap | .pairs => setShape id (.pairs (← (← itemsOf id).mapM singleEntry))
  | .set => setShape id (.set ((← keyed fuel id).map (·.1)))
  | .mapping => setShape id (.map (← keyed fuel id))
  | _ =>
    let items ← itemsOf id
    items.forM meet
    setShape id (.list items)

/-- Fills all open collections, and those that open meanwhile. -/
def fillAll (flattening : Nat) : (fuel : Nat) → Construction Unit
  | 0 => throw .endless
  | fuel + 1 => do
    match (← get).waiting with
    | [] => return
    | id :: rest =>
      modify fun w => { w with waiting := rest }
      fill flattening id
      fillAll flattening fuel

end Construction

/-! ## Values -/

/-- The values of the nodes that lead to nothing around them, as far as they are known. -/
abbrev Known := List (NodeId × Value)

/-- A value, and the number of containers around it that it leads to. -/
abbrev Built := Value × Nat

/-- The value of a node inside of containers, of which those of nodes have their numbers. A node
that is one of them becomes a reference to it. -/
def build (shapes : Array (Option Shape)) : (fuel : Nat) → (around : List (Option NodeId)) → NodeId →
    StateM Known Built
  | 0, _, _ => return (.missing, 0)
  | fuel + 1, around, id => do
    match around.idxOf? (some id) with
    | some n => return (.up n, n + 1)
    | none =>
      match (← get).lookup id with
      | some v => return (v, 0)
      | none =>
        let inner := some id :: around
        let part (around : List (Option NodeId)) (id : NodeId) := build shapes fuel around id
        let (v, reach) ← match shapes.getD id none with
          | none => pure (Value.missing, 0)
          | some (.whole v) => pure (v, 0)
          | some (.set items) => pure (Value.set items, 0)
          | some (.list items) => do
            let parts ← items.mapM (part inner)
            pure (Value.list (parts.map (·.1)), (parts.map (·.2 - 1)).foldl max 0)
          | some (.map entries) => do
            let parts ← entries.mapM fun (k, i) => do
              let (v, reach) ← part inner i
              return (k, v, reach - 1)
            pure (Value.map (parts.map fun (k, v, _) => (k, v)),
              (parts.map fun (_, _, reach) => reach).foldl max 0)
          | some (.pairs items) => do
            let parts ← items.mapM fun (i, j) => do
              let (key, m) ← part (none :: inner) i
              let (value, n) ← part (none :: inner) j
              return (Value.tuple [key, value], max m n - 2)
            pure (Value.list (parts.map (·.1)), (parts.map (·.2)).foldl max 0)
        if reach == 0 then modify ((id, v) :: ·)
        return (v, reach)

/-- The value of a settings document. -/
def read (text : String) : Except Fault Value := do
  match ← Graph.ofText text with
  | (none, _) => return .null
  | (some root, nodes) =>
    let links := nodes.foldl (fun n node => n + match node.content with
      | .scalar _ => 1
      | .sequence items => items.length + 1
      | .mapping entries => 2 * entries.length + 1) 0
    let work : Construction Unit := do
      Construction.meet root
      Construction.fillAll (2 * links + 2) (nodes.size + 1)
    let (_, w) ← work.run ⟨nodes, Array.replicate nodes.size none, []⟩
    let (v, _) := (build w.shapes (2 * nodes.size + 1) [] root).run []
    return v.1

end Attest.Document
