import Mathlib
import ApiScaffold.Proofs.Lists
import ApiScaffold.Relations.Graph

/-! The graph of relations as a relation between names. Its nodes are the names of the resources,
each once, and its edges are the well-formed relations to other existing resources. -/

namespace ApiScaffold

namespace Graph

/-- The nodes that a node has edges to; a name that is no node has none. -/
def neighbours (graph : Graph) (node : String) : List String := (graph.neighbours? node).getD []

/-- There is an edge between two nodes. -/
def Edge (graph : Graph) (source target : String) : Prop := target ∈ graph.neighbours source

/-- Nodes occur once, edges lead to other nodes, and none is listed twice. -/
structure Tidy (graph : Graph) : Prop where
  nodes_nodup : graph.nodes.Nodup
  neighbours_nodup : ∀ node, (graph.neighbours node).Nodup
  edge_mem : ∀ source target, graph.Edge source target → target ∈ graph.nodes
  edge_ne : ∀ source target, graph.Edge source target → source ≠ target

theorem mem_nodes_of_edge {graph : Graph} {source target : String}
    (h : graph.Edge source target) : source ∈ graph.nodes := by
  by_contra hmem
  rw [Edge, neighbours, neighbours?, lookup_eq_none_of_not_mem hmem] at h
  exact List.not_mem_nil h

theorem neighbours_of_mem {graph : Graph} (hnodup : graph.nodes.Nodup)
    {entry : String × List String} (hmem : entry ∈ graph.entries) :
    graph.neighbours entry.1 = entry.2 := by
  rw [neighbours, neighbours?, lookup_of_mem hnodup hmem, Option.getD_some]

/-- The size of a graph counts each node with its edges. -/
theorem size_eq_sum {graph : Graph} (hnodup : graph.nodes.Nodup) :
    graph.size = (graph.nodes.map fun node => (graph.neighbours node).length + 1).sum := by
  have hsum : graph.size = (graph.entries.map fun entry => entry.2.length + 1).sum := by
    rw [size]
    induction graph.entries with
    | nil => rfl
    | cons entry rest ih => rw [List.foldr_cons, ih, List.map_cons, List.sum_cons]
  rw [hsum, nodes, List.map_map]
  congr 1
  apply List.map_congr_left
  intro entry hmem
  rw [Function.comp_apply, neighbours_of_mem hnodup hmem]

end Graph

/-- A well-formed relation of some field leads from one resource to another existing one. -/
def ApiConfig.Relates (config : ApiConfig) (source target : String) : Prop :=
  source ≠ target ∧ target ∈ config.resourceNames ∧
    ∃ resource ∈ config.resources, resource.name = source ∧
      ∃ field ∈ resource.fields, ∃ relation, field.target? = some relation ∧
        relation.resource = target

theorem mem_relatedResources {config : ApiConfig} {source target : String} :
    target ∈ relatedResources config source ↔ config.Relates source target := by
  simp only [relatedResources, ApiConfig.Relates, List.mem_eraseDups, List.mem_filter,
    List.mem_flatMap, Bool.and_eq_true, bne_iff_ne, List.contains_iff_mem]
  constructor
  · rintro ⟨⟨resource, hresource, htarget⟩, hne, hmem⟩
    split at htarget
    · rename_i hname
      obtain ⟨field, hfield, hrelation⟩ := List.mem_filterMap.mp htarget
      obtain ⟨relation, hsome, heq⟩ := Option.map_eq_some_iff.mp hrelation
      exact ⟨Ne.symm hne, hmem, resource, hresource, hname, field, hfield, relation, hsome, heq⟩
    · exact absurd htarget List.not_mem_nil
  · rintro ⟨hne, hmem, resource, hresource, hname, field, hfield, relation, hsome, heq⟩
    refine ⟨⟨resource, hresource, ?_⟩, Ne.symm hne, hmem⟩
    rw [if_pos hname]
    exact List.mem_filterMap.mpr ⟨field, hfield, by rw [hsome, Option.map_some, heq]⟩

theorem relationGraph_nodes (config : ApiConfig) :
    (relationGraph config).nodes = config.resourceNames.eraseDups := by
  rw [relationGraph, Graph.nodes, List.map_map]
  exact List.map_id _

theorem mem_relationGraph_nodes {config : ApiConfig} {name : String} :
    name ∈ (relationGraph config).nodes ↔ name ∈ config.resourceNames := by
  rw [relationGraph_nodes, List.mem_eraseDups]

/-- Every resource has an entry. -/
theorem relationGraph_neighbours? (config : ApiConfig) (node : String) :
    (relationGraph config).neighbours? node =
      if node ∈ config.resourceNames then some (relatedResources config node) else none := by
  rw [Graph.neighbours?, relationGraph, lookup_map_self]
  simp only [List.mem_eraseDups]

theorem relationGraph_neighbours (config : ApiConfig) (node : String) :
    (relationGraph config).neighbours node =
      if node ∈ config.resourceNames then relatedResources config node else [] := by
  rw [Graph.neighbours, relationGraph_neighbours?]
  split <;> rfl

/-- The edges of the graph are the relations between resources. -/
theorem relationGraph_edge {config : ApiConfig} {source target : String} :
    (relationGraph config).Edge source target ↔ config.Relates source target := by
  rw [Graph.Edge, relationGraph_neighbours]
  by_cases hmem : source ∈ config.resourceNames
  · rw [if_pos hmem]
    exact mem_relatedResources
  · rw [if_neg hmem]
    refine ⟨fun h => absurd h List.not_mem_nil, ?_⟩
    rintro ⟨-, -, resource, hresource, hname, -⟩
    exact absurd (hname ▸ List.mem_map_of_mem hresource) hmem

theorem relationGraph_tidy (config : ApiConfig) : (relationGraph config).Tidy where
  nodes_nodup := by
    rw [relationGraph_nodes]
    exact nodup_eraseDups _
  neighbours_nodup node := by
    rw [relationGraph_neighbours]
    split
    · exact nodup_eraseDups _
    · exact List.nodup_nil
  edge_mem source target h := mem_relationGraph_nodes.mpr (relationGraph_edge.mp h).2.1
  edge_ne source target h := (relationGraph_edge.mp h).1

end ApiScaffold
