import ApiScaffold.Yaml.Fault
import ApiScaffold.Yaml.Tag
import ApiScaffold.Yaml.Token

/-!
The nodes of a document: tagged scalars, sequences and mappings. An alias is another mention of the
node it stands for, so nodes form a graph, in which a collection can contain itself.
-/

namespace ApiScaffold.Yaml

/-- The place of a node in its graph. -/
abbrev NodeId := Nat

/-- What a node holds. -/
inductive NodeContent where
  | scalar (text : ScalarText)
  | sequence (items : List NodeId)
  | mapping (entries : List (NodeId × NodeId))

/-- A node: its tag, what it holds, and where it starts. -/
structure Node where
  tag : Tag
  content : NodeContent
  start : Mark

namespace Node

instance : Inhabited Node := ⟨⟨.null, .scalar ⟨[]⟩, default⟩⟩

def kind (node : Node) : NodeKind :=
  match node.content with
  | .scalar _ => .scalar
  | .sequence _ => .sequence
  | .mapping _ => .mapping

def expected {α : Type} (node : Node) (kind : NodeKind) : Except Fault α :=
  .error (.marked ⟨.content, none, .expectedKind kind node.kind, node.start⟩)

/-- A fault of content at a place, found while the content of a node was read. -/
def fault {α : Type} (node : Node) (activity : Activity) (problem : Problem) (mark : Mark) :
    Except Fault α :=
  .error (.marked ⟨.content, some (activity, some node.start), problem, mark⟩)

end Node

/-- The nodes of a document. -/
structure Graph where
  nodes : Array Node := #[]

namespace Graph

def node (graph : Graph) (id : NodeId) : Node := graph.nodes.getD id default

def tag (graph : Graph) (id : NodeId) : Tag := (graph.node id).tag

/-- The entries of the node at a place, if it is a mapping. -/
def entries (graph : Graph) (id : NodeId) : List (NodeId × NodeId) :=
  match (graph.node id).content with
  | .mapping entries => entries
  | _ => []

/-- Adds a node; gives its place. -/
def add (graph : Graph) (node : Node) : NodeId × Graph :=
  (graph.nodes.size, ⟨graph.nodes.push node⟩)

def withContent (graph : Graph) (id : NodeId) (content : NodeContent) : Graph :=
  ⟨graph.nodes.modify id fun node => { node with content }⟩

def withTag (graph : Graph) (id : NodeId) (tag : Tag) : Graph :=
  ⟨graph.nodes.modify id fun node => { node with tag }⟩

def entryCount (graph : Graph) : Nat :=
  graph.nodes.foldl (fun total node =>
    match node.content with
    | .mapping entries => total + entries.length
    | _ => total) 0

end Graph

end ApiScaffold.Yaml
