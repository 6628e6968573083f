import ApiScaffold.Yaml.Content
import ApiScaffold.Yaml.Merge

/-!
Values under construction. Each node is given its value once, and a collection is begun empty and
filled later, level by level; so a collection can hold itself, and of several faults of content the
shallowest is reported, and of those the first.
-/

namespace ApiScaffold.Yaml

/-- The value a node was given: a finished one, with the node it was made for unless all nodes share
it, or a collection by its place in the draft. -/
inductive Part where
  | finished (value : Value) (origin : Option NodeId)
  | collection (place : Nat)

namespace Part

/-- Whether a part can be a key. -/
def isHashable : Part → Bool
  | .finished .. => true
  | .collection _ => false

/-- Whether two parts are one key: a value is the same as itself, even if it is not-a-number. -/
def sameKey (x y : Part) : Bool :=
  match x, y with
  | .finished v o, .finished w p => o == p || Value.sameKey v w
  | _, _ => false

end Part

/-- A collection in a draft. -/
inductive Collection where
  | list (items : List Part)
  | pairs (items : List (Part × Part))
  | set (members : List Part)
  | mapping (entries : List (Part × Part))

/-- Puts an entry into ordered entries: a key that is there keeps its place and gets the value. -/
def putEntry (entries : List (Part × Part)) (entry : Part × Part) : List (Part × Part) :=
  if entries.any fun e => e.1.sameKey entry.1 then
    entries.map fun e => if e.1.sameKey entry.1 then (e.1, entry.2) else e
  else entries ++ [entry]

/-- A collection that was begun: its node, its tag at that time and its place. -/
structure Begun where
  node : NodeId
  tag : Tag
  place : Nat

/-- The state of a draft: the nodes, what they were given so far, the collections, and those that are
still to be filled, last one first. -/
structure Draft where
  graph : Graph
  given : Array (Option Part)
  collections : Array Collection := #[]
  begun : List Begun := []

abbrev Drafting := StateT Draft (Except Fault)

namespace Drafting

/-- The text of a node that has to be a scalar. A mapping with a value key stands for the scalar of
its value; one that stands for itself has none. -/
def scalarText (graph : Graph) (id : NodeId) : Nat → Except Fault ScalarText
  | 0 => (graph.node id).expected .scalar
  | fuel + 1 =>
    match (graph.node id).content with
    | .scalar text => .ok text
    | .mapping entries =>
      match entries.find? fun entry => graph.tag entry.1 == .value with
      | some (_, value) => scalarText graph value fuel
      | none => (graph.node id).expected .scalar
    | .sequence _ => (graph.node id).expected .scalar

/-- The value of a node with a tag that asks for a scalar. -/
def scalarPart (graph : Graph) (id : NodeId) : Except Fault Part := do
  let node := graph.node id
  if (scalarValue? node.tag ⟨[]⟩ node.start).isNone then
    throw (.marked ⟨.content, none, .unknownTag node.tag.uri, node.start⟩)
  let content ← scalarText graph id (graph.nodes.size + 1)
  if node.tag == .timestamp && node.kind == .mapping then contentFault .timestampNotText
  match scalarValue? node.tag content node.start with
  | none => return .finished .null id
  | some value =>
    let shared := node.tag == .float && isNotANumberWord content
    return .finished (← value) (if shared then none else some id)

/-- The empty collection a tag asks for, if it asks for one. -/
def emptyCollection? : Tag → Option Collection
  | .seq => some (.list [])
  | .orderedMap | .pairs => some (.pairs [])
  | .set => some (.set [])
  | .map => some (.mapping [])
  | _ => none

/-- The value of a node: what it was given before, a scalar, or a collection that is begun. -/
def part (id : NodeId) : Drafting Part := do
  let draft ← get
  match draft.given.getD id none with
  | some part => return part
  | none =>
    let tag := draft.graph.tag id
    match emptyCollection? tag with
    | none =>
      let part ← scalarPart draft.graph id
      set { draft with given := draft.given.setIfInBounds id part }
      return part
    | some empty =>
      let place := draft.collections.size
      set { draft with
        given := draft.given.setIfInBounds id (some (.collection place))
        collections := draft.collections.push empty
        begun := ⟨id, tag, place⟩ :: draft.begun }
      return .collection place

def items (id : NodeId) : Drafting (List Part) := do
  let node := (← get).graph.node id
  match node.content with
  | .sequence items => items.mapM part
  | _ => node.expected .sequence

/-- The pairs of a sequence of mappings with one entry each. -/
def pairs (activity : Activity) (id : NodeId) : Drafting (List (Part × Part)) := do
  let node := (← get).graph.node id
  match node.content with
  | .sequence items =>
    items.mapM fun item => do
      let inner := (← get).graph.node item
      match inner.content with
      | .mapping [(key, value)] => return (← part key, ← part value)
      | .mapping entries => node.fault activity (.notASingleItem entries.length) inner.start
      | _ => node.fault activity (.notASingleMapping inner.kind) inner.start
  | _ => node.fault activity (.notASequence node.kind) node.start

/-- The entries of a mapping after merging. -/
def entries (id : NodeId) : Drafting (List (Part × Part)) := do
  let draft ← get
  let node := draft.graph.node id
  if node.kind != .mapping then node.expected .mapping
  let graph ← draft.graph.merge id
  set { draft with graph := graph }
  let found ← (graph.entries id).mapM fun (key, value) => do
    let keyPart ← part key
    unless keyPart.isHashable do
      node.fault .mappingContent .unhashableKey (graph.node key).start
    return (keyPart, ← part value)
  return found.foldl putEntry []

def content (begun : Begun) : Drafting Collection :=
  match begun.tag with
  | .seq => .list <$> items begun.node
  | .orderedMap => .pairs <$> pairs .orderedMap begun.node
  | .pairs => .pairs <$> pairs .pairs begun.node
  | .set => (fun found => .set (found.map (·.1))) <$> entries begun.node
  | _ => .mapping <$> entries begun.node

/-- Fills the collections that were begun, level by level. -/
def fill : Nat → Drafting Unit
  | 0 => return
  | fuel + 1 => do
    let level := (← get).begun.reverse
    unless level.isEmpty do
      modify fun draft => { draft with begun := [] }
      for begun in level do
        let found ← content begun
        modify fun draft =>
          { draft with collections := draft.collections.setIfInBounds begun.place found }
      fill fuel

end Drafting

/-! ### Finished values -/

/-- How often a collection that contains itself is written out inside itself. -/
def repeatLimit : Nat := 4

namespace Draft

/-- The value of a part, given the collections around it. The fuel bounds the depth. -/
def value (draft : Draft) (around : List Nat) (part : Part) : Nat → Value
  | 0 => .unending
  | fuel + 1 =>
    match part with
    | .finished value _ => value
    | .collection place =>
      if repeatLimit ≤ around.count place then .unending
      else
        let inner (part : Part) : Value := draft.value (place :: around) part fuel
        match draft.collections.getD place (.list []) with
        | .list items => .list (items.map inner)
        | .pairs items => .list (items.map fun item => .tuple [inner item.1, inner item.2])
        | .set members => .set (members.map inner)
        | .mapping entries => .mapping (entries.map fun entry => (inner entry.1, inner entry.2))

end Draft

/-- The value of a node of a graph, or its first fault of content. A graph has at most as many levels
as nodes. -/
def Graph.load (graph : Graph) (root : NodeId) : Except Fault Value := do
  let size := graph.nodes.size
  let start : Draft := { graph := graph, given := Array.replicate size none }
  let drafting : Drafting Part := do
    let part ← Drafting.part root
    Drafting.fill (size + 1)
    return part
  let (part, draft) ← drafting.run start
  return draft.value [] part (repeatLimit * draft.collections.size + 2)

end ApiScaffold.Yaml
