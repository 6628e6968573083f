import ApiScaffold.Yaml.Node

/-!
Merge keys. A mapping takes over the entries of the mappings that its merge keys name: merged entries
come first, and of a list of mappings the last one comes first. Merging changes the node itself, so
every mention of the node sees the merged entries.
-/

namespace ApiScaffold.Yaml.Graph

def isMerge (graph : Graph) (entry : NodeId × NodeId) : Bool := graph.tag entry.1 == .merge

def plainKey (graph : Graph) (key : NodeId) : Graph :=
  if graph.tag key == .value then graph.withTag key .str else graph

/-- Ends the merging of a mapping: its entries come behind the merged ones. -/
def finishMerge (graph : Graph) (id : NodeId) (merged : List (NodeId × NodeId)) : Graph :=
  let entries := graph.entries id
  let graph := entries.foldl (fun graph entry => graph.plainKey entry.1) graph
  if merged.isEmpty then graph else graph.withContent id (.mapping (merged ++ entries))

mutual

/-- Carries out the merge keys of a mapping one after the other. An entry with a merge key is removed
before the mappings it names are merged themselves, so each is carried out once. -/
def mergeEntries (graph : Graph) (id : NodeId) (merged : List (NodeId × NodeId)) :
    Nat → Except Fault Graph
  | 0 => .ok graph
  | fuel + 1 =>
    let entries := graph.entries id
    match entries.find? graph.isMerge with
    | none => .ok (graph.finishMerge id merged)
    | some (_, source) => do
      let rest := entries.eraseIdx (entries.findIdx graph.isMerge)
      let (graph, found) ← mergeSource (graph.withContent id (.mapping rest)) id source fuel
      mergeEntries graph id (merged ++ found) fuel

/-- The entries that a merge key of a mapping brings in. -/
def mergeSource (graph : Graph) (id source : NodeId) :
    Nat → Except Fault (Graph × List (NodeId × NodeId))
  | 0 => .ok (graph, [])
  | fuel + 1 =>
    match (graph.node source).content with
    | .mapping _ => do
      let graph ← mergeEntries graph source [] fuel
      return (graph, graph.entries source)
    | .sequence items => do
      let (graph, parts) ← items.foldlM (fun (graph, parts) item => do
        match (graph.node item).content with
        | .mapping _ =>
          let graph ← mergeEntries graph item [] fuel
          return (graph, graph.entries item :: parts)
        | _ =>
          (graph.node id).fault .mappingContent (.badMergeItem (graph.node item).kind)
            (graph.node item).start) (graph, [])
      return (graph, parts.flatten)
    | .scalar _ =>
      (graph.node id).fault .mappingContent (.badMergeValue .scalar) (graph.node source).start

end

/-- Carries out the merge keys of a mapping. Each step removes an entry or follows one that was just
removed, so twice as many steps as there are entries are enough. -/
def merge (graph : Graph) (id : NodeId) : Except Fault Graph :=
  if (graph.entries id).any graph.isMerge then
    graph.mergeEntries id [] (2 * graph.entryCount + 2)
  else .ok (graph.finishMerge id [])

end ApiScaffold.Yaml.Graph
