import ApiScaffold.Config.Basic

/-!
The graph of relations between resources. Nodes are the names of resources; relations of a resource
to itself and to resources that do not exist are no edges.
-/

namespace ApiScaffold

/-- Nodes in order, each with the nodes it has edges to. -/
structure Graph where
  entries : List (String × List String)
  deriving DecidableEq, Repr

namespace Graph

def nodes (graph : Graph) : List String := graph.entries.map (·.1)

def neighbours? (graph : Graph) (node : String) : Option (List String) := graph.entries.lookup node

/-- How many nodes and edges there are. -/
def size (graph : Graph) : Nat :=
  graph.entries.foldr (fun entry total => entry.2.length + 1 + total) 0

end Graph

/-- The resources that relations of the named resource lead to, each once. -/
def relatedResources (config : ApiConfig) (name : String) : List String :=
  let targets := config.resources.flatMap fun resource =>
    if resource.name = name then
      resource.fields.filterMap fun field => field.target?.map RelationTarget.resource
    else []
  (targets.filter fun target => target != name && config.resourceNames.contains target).eraseDups

def relationGraph (config : ApiConfig) : Graph :=
  ⟨config.resourceNames.eraseDups.map fun name => (name, relatedResources config name)⟩

end ApiScaffold
