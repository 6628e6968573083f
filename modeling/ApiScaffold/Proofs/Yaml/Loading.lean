import Mathlib
import ApiScaffold.Proofs.Yaml.Fault
import ApiScaffold.Yaml.Draft

/-! Graphs that are loaded without a fault of content. It is enough that every scalar of the graph denotes a
value under its tag, and that no mapping has a tag of scalars. Merging keeps this: it moves entries, and
the only tag that it changes becomes the one of texts. -/

namespace ApiScaffold.Yaml

/-- The tags whose scalars may have a text that denotes nothing. -/
def demandingTags : List Tag := [.bool, .int, .float, .timestamp]

/-- A scalar that denotes a value under its tag, or a collection that does not have the tag of a scalar. -/
def Node.IsReadable (node : Node) : Prop :=
  match node.content with
  | .scalar text => ∀ value ∈ scalarValue? node.tag text node.start, Yields (fun _ => True) value
  | .sequence _ => True
  | .mapping _ => node.tag ∉ demandingTags

instance (node : Node) : Decidable node.IsReadable :=
  match h : node.content with
  | .scalar text =>
    decidable_of_iff (∀ value ∈ scalarValue? node.tag text node.start, Yields (fun _ => True) value)
      (by rw [Node.IsReadable, h])
  | .sequence _ => isTrue (by rw [Node.IsReadable, h]; trivial)
  | .mapping _ => decidable_of_iff (node.tag ∉ demandingTags) (by rw [Node.IsReadable, h])

/-- All nodes of a graph are readable. -/
def Graph.Readable (graph : Graph) : Prop := ∀ id, (graph.node id).IsReadable

/-- It is enough to look at the nodes that are there. -/
theorem Graph.readable_iff {graph : Graph} :
    graph.Readable ↔ ∀ node ∈ graph.nodes.toList, node.IsReadable := by
  have hdefault : (default : Node).IsReadable := by decide
  constructor
  · intro h node hnode
    obtain ⟨id, hid⟩ := Array.getElem?_of_mem (Array.mem_toList_iff.mp hnode)
    have hnode := h id
    rwa [Graph.node, Array.getD_eq_getD_getElem?, hid] at hnode
  · intro h id
    rw [Graph.node, Array.getD_eq_getD_getElem?]
    cases hnode : graph.nodes[id]? with
    | none => exact hdefault
    | some node => exact h node (Array.mem_toList_iff.mpr (Array.mem_of_getElem? hnode))

instance (graph : Graph) : Decidable graph.Readable := decidable_of_iff _ Graph.readable_iff.symm

/-! ### Scalars -/

theorem yields_binaryContent (content : ScalarText) (start : Mark) :
    Yields (fun _ => True) (binaryContent content start) := by
  rw [binaryContent]
  split
  · trivial
  · split <;> trivial

/-- Texts under all other tags denote something, or their fault is one of the document text. -/
theorem yields_scalarValue {tag : Tag} (h : tag ∉ demandingTags) (text : ScalarText) (start : Mark) :
    ∀ value ∈ scalarValue? tag text start, Yields (fun _ => True) value := by
  intro value hvalue
  cases tag with
  | bool | int | float | timestamp => exact absurd (by decide) h
  | null | str =>
      obtain rfl := Option.some.inj hvalue
      trivial
  | binary =>
      obtain rfl := Option.some.inj hvalue
      exact yields_binaryContent text start
  | _ => cases hvalue

namespace Graph

variable {graph : Graph} {id : NodeId}

/-! ### Changes of a node -/

theorem node_withContent (graph : Graph) (id other : NodeId) (content : NodeContent) :
    (graph.withContent id content).node other = graph.node other ∨
      other = id ∧ (graph.withContent id content).node other = { graph.node other with content } := by
  simp only [node, withContent, Array.getD_eq_getD_getElem?, Array.getElem?_modify]
  by_cases heq : id = other
  · cases hnode : graph.nodes[other]? <;> simp [heq]
  · simp [heq]

theorem node_withTag (graph : Graph) (id other : NodeId) (tag : Tag) :
    (graph.withTag id tag).node other = graph.node other ∨
      other = id ∧ (graph.withTag id tag).node other = { graph.node other with tag } := by
  simp only [node, withTag, Array.getD_eq_getD_getElem?, Array.getElem?_modify]
  by_cases heq : id = other
  · cases hnode : graph.nodes[other]? <;> simp [heq]
  · simp [heq]

/-- A graph is readable, and what was a mapping in another graph is a mapping in it. -/
structure Follows (graph later : Graph) : Prop where
  readable : later.Readable
  mapping : ∀ id, (graph.node id).kind = .mapping → (later.node id).kind = .mapping

theorem Follows.refl (h : graph.Readable) : graph.Follows graph := ⟨h, fun _ => id⟩

theorem Follows.trans {later last : Graph} (h : graph.Follows later) (hlast : later.Follows last) :
    graph.Follows last := ⟨hlast.readable, fun id hid => hlast.mapping id (h.mapping id hid)⟩

theorem kind_eq_mapping {node : Node} : node.kind = .mapping ↔ ∃ entries, node.content = .mapping entries := by
  rw [Node.kind]
  split <;> simp_all

theorem follows_withContent (h : graph.Readable) (hid : (graph.node id).kind = .mapping)
    (entries : List (NodeId × NodeId)) : graph.Follows (graph.withContent id (.mapping entries)) := by
  constructor
  · intro other
    rcases graph.node_withContent id other (.mapping entries) with hsame | ⟨rfl, hchanged⟩
    · exact hsame ▸ h other
    · obtain ⟨old, hold⟩ := kind_eq_mapping.mp hid
      have hreadable := h other
      rw [Node.IsReadable, hold] at hreadable
      rw [hchanged]
      exact hreadable
  · intro other hother
    rcases graph.node_withContent id other (.mapping entries) with hsame | ⟨rfl, hchanged⟩
    · exact hsame ▸ hother
    · rw [hchanged]
      rfl

theorem follows_plainKey (h : graph.Readable) (key : NodeId) : graph.Follows (graph.plainKey key) := by
  rw [plainKey]
  split
  · constructor
    · intro other
      rcases graph.node_withTag key other .str with hsame | ⟨rfl, hchanged⟩
      · exact hsame ▸ h other
      · have htext : Tag.str ∉ demandingTags := by decide
        rw [hchanged, Node.IsReadable]
        split
        · exact yields_scalarValue htext _ _
        · trivial
        · exact htext
    · intro other hother
      rcases graph.node_withTag key other .str with hsame | ⟨rfl, hchanged⟩
      · exact hsame ▸ hother
      · rw [hchanged]
        exact hother
  · exact .refl h

theorem follows_finishMerge (h : graph.Readable) (hid : (graph.node id).kind = .mapping)
    (merged : List (NodeId × NodeId)) : graph.Follows (graph.finishMerge id merged) := by
  have hkeys : ∀ entries : List (NodeId × NodeId), ∀ start, graph.Follows start →
      graph.Follows (entries.foldl (fun graph entry => graph.plainKey entry.1) start) := by
    intro entries
    induction entries with
    | nil => exact fun start hstart => hstart
    | cons entry rest ih =>
        exact fun start hstart => ih _ (hstart.trans (follows_plainKey hstart.readable entry.1))
  have hplain := hkeys (graph.entries id) graph (.refl h)
  rw [finishMerge]
  split
  · exact hplain
  · exact hplain.trans (follows_withContent hplain.readable (hplain.mapping id hid) _)

/-! ### Merging -/

theorem yields_mergeEntries (fuel : Nat) :
    (∀ (graph : Graph) (id : NodeId) (merged : List (NodeId × NodeId)), graph.Readable →
        (graph.node id).kind = .mapping → Yields graph.Follows (graph.mergeEntries id merged fuel)) ∧
      ∀ (graph : Graph) (id source : NodeId), graph.Readable →
        Yields (fun result => graph.Follows result.1) (graph.mergeSource id source fuel) := by
  -- Entries are merged from sources, and sources are merged themselves before, each with less fuel.
  induction fuel with
  | zero => exact ⟨fun graph id merged h _ => .refl h, fun graph id source h => .refl h⟩
  | succ fuel ih =>
      obtain ⟨hentries, hsource⟩ := ih
      constructor
      · intro graph id merged h hid
        rw [mergeEntries]
        split
        · exact follows_finishMerge h hid merged
        · rename_i source hfound
          have hrest := follows_withContent h hid ((graph.entries id).eraseIdx
            ((graph.entries id).findIdx graph.isMerge))
          refine (hsource _ id source hrest.readable).bind fun result hresult => ?_
          have hfollows := hrest.trans hresult
          exact (hentries _ id _ hfollows.readable (hfollows.mapping id hid)).imp fun _ => hfollows.trans
      · intro graph id source h
        rw [mergeSource]
        split
        · rename_i hcontent
          have hkind := kind_eq_mapping.mpr ⟨_, hcontent⟩
          exact (hentries graph source [] h hkind).bind fun later hlater => hlater
        · refine Yields.bind (@Yields.foldlM _ _ (fun result => graph.Follows result.1) _ _ _
            (.refl h) ?_) ?_
          · rintro ⟨later, parts⟩ item _ hlater
            dsimp only
            split
            · rename_i hcontent
              have hkind := kind_eq_mapping.mpr ⟨_, hcontent⟩
              exact (hentries later item [] hlater.readable hkind).bind fun last hlast =>
                hlater.trans hlast
            · trivial
          · rintro ⟨later, parts⟩ hlater
            exact hlater
        · trivial

/-- Merging keeps a graph readable, and its faults are those of the document text. -/
theorem yields_merge (h : graph.Readable) (id : NodeId) (hid : (graph.node id).kind = .mapping) :
    Yields Readable (graph.merge id) := by
  rw [merge]
  split
  · exact ((yields_mergeEntries _).1 graph id [] h hid).imp fun _ => Follows.readable
  · exact (follows_finishMerge h hid []).readable

end Graph

/-! ### Drafts -/

/-- A step on drafts keeps the graph readable. -/
abbrev Drafting.Spares {α : Type} (step : Drafting α) : Prop :=
  Keeps (fun draft : Draft => draft.graph.Readable) step

namespace Drafting

variable {graph : Graph} {id : NodeId}

/-- The text that is read for a node is its own, or the node is a mapping. -/
theorem yields_scalarText (graph : Graph) (id : NodeId) (fuel : Nat) :
    Yields (fun text => (graph.node id).content = .scalar text ∨ (graph.node id).kind = .mapping)
      (scalarText graph id fuel) := by
  induction fuel generalizing id with
  | zero => trivial
  | succ fuel ih =>
      rw [scalarText]
      split
      · rename_i text hcontent
        exact Or.inl hcontent
      · rename_i hcontent
        have hkind := Graph.kind_eq_mapping.mpr ⟨_, hcontent⟩
        split
        · exact (ih _).imp fun _ _ => Or.inr hkind
        · trivial
      · trivial

theorem not_demanding_of_mapping (h : graph.Readable) (hkind : (graph.node id).kind = .mapping) :
    (graph.node id).tag ∉ demandingTags := by
  obtain ⟨entries, hcontent⟩ := Graph.kind_eq_mapping.mp hkind
  have hnode := h id
  rwa [Node.IsReadable, hcontent] at hnode

theorem yields_scalarPart (h : graph.Readable) (id : NodeId) :
    Yields (fun _ => True) (scalarPart graph id) := by
  rw [scalarPart]
  dsimp only
  split
  · trivial
  · refine (yields_scalarText graph id _).bind fun text htext => ?_
    have hvalues : ∀ value ∈ scalarValue? (graph.node id).tag text (graph.node id).start,
        Yields (fun _ => True) value := by
      rcases htext with hcontent | hkind
      · have hnode := h id
        rwa [Node.IsReadable, hcontent] at hnode
      · exact yields_scalarValue (not_demanding_of_mapping h hkind) text _
    split
    -- A moment is asked of a mapping only under the tag of moments, which no readable mapping has.
    · rename_i hmoment
      rw [Bool.and_eq_true, beq_iff_eq, beq_iff_eq] at hmoment
      have htag := not_demanding_of_mapping h hmoment.2
      rw [hmoment.1] at htag
      exact absurd (by decide) htag
    · split
      · trivial
      · rename_i value hvalue
        exact (hvalues value hvalue).bind fun _ _ => trivial

theorem spares_part (id : NodeId) : Spares (part id) := by
  intro draft hdraft
  unfold part
  refine .get_bind ?_
  split
  · exact hdraft
  · dsimp only
    split
    · refine .lift_bind (yields_scalarPart hdraft id) fun part _ => ?_
      exact hdraft
    · exact hdraft

theorem spares_items (id : NodeId) : Spares (items id) := by
  intro draft hdraft
  unfold items
  refine .get_bind ?_
  dsimp only
  split
  · exact Keeps.mapM (fun item _ => spares_part item) draft hdraft
  · trivial

theorem spares_pairs (activity : Activity) (id : NodeId) : Spares (pairs activity id) := by
  intro draft hdraft
  unfold pairs
  refine .get_bind ?_
  dsimp only
  split
  · refine Keeps.mapM (fun item _ => ?_) draft hdraft
    intro draft hdraft
    refine .get_bind ?_
    split
    · exact ((spares_part _).bind fun _ => (spares_part _).bind fun _ => .of_pure _) draft hdraft
    · trivial
    · trivial
  · trivial

theorem spares_entries (id : NodeId) : Spares (entries id) := by
  intro draft hdraft
  unfold entries
  refine .get_bind ?_
  dsimp only
  split
  · trivial
  · rename_i hkind
    have hkind : (draft.graph.node id).kind = .mapping := by simpa using hkind
    -- From here on the graph is the merged one.
    refine .lift_bind (Graph.yields_merge hdraft id hkind) fun graph hgraph => .set_bind ?_
    refine Keeps.bind (Keeps.mapM fun entry _ => ?_) (fun found => .of_pure _) _ hgraph
    refine (spares_part entry.1).bind fun keyPart => ?_
    have hvalue : Spares (do return (keyPart, ← part entry.2)) :=
      (spares_part entry.2).bind fun valuePart => .of_pure _
    split
    · exact hvalue
    · exact Keeps.bind (.of_lift trivial) fun _ => hvalue

theorem spares_content (begun : Begun) : Spares (content begun) := by
  unfold content
  split
  · exact (spares_items begun.node).map
  · exact (spares_pairs .orderedMap begun.node).map
  · exact (spares_pairs .pairs begun.node).map
  · exact (spares_entries begun.node).map
  · exact (spares_entries begun.node).map

theorem spares_fill (fuel : Nat) : Spares (fill fuel) := by
  induction fuel with
  | zero => exact .of_pure ()
  | succ fuel ih =>
      intro draft hdraft
      unfold fill
      refine .get_bind ?_
      dsimp only
      split
      · exact hdraft
      · have hround : ∀ begun : Begun, Spares (do
            let found ← content begun
            modify fun draft =>
              { draft with collections := draft.collections.setIfInBounds begun.place found }
            return ForInStep.yield PUnit.unit) := fun begun =>
          (spares_content begun).bind fun found => Keeps.bind (.of_modify fun _ h => h) fun _ => .of_pure _
        have hlevel : Spares (do
            modify fun draft => { draft with begun := [] }
            for begun in draft.begun.reverse do
              let found ← content begun
              modify fun draft =>
                { draft with collections := draft.collections.setIfInBounds begun.place found }
            fill fuel) :=
          Keeps.bind (.of_modify fun _ h => h) fun _ =>
            Keeps.bind (.forIn fun begun _ _ => hround begun) fun _ => ih
        exact hlevel draft hdraft

end Drafting

/-- **Readable graphs are loaded.** Faults are those of the document text. -/
theorem Graph.yields_load {graph : Graph} (h : graph.Readable) (root : NodeId) :
    Yields (fun _ => True) (graph.load root) := by
  have hdrafting : Drafting.Spares (do
      let part ← Drafting.part root
      Drafting.fill (graph.nodes.size + 1)
      return part) :=
    (Drafting.spares_part root).bind fun part =>
      (Drafting.spares_fill (graph.nodes.size + 1)).bind fun _ => .of_pure part
  exact Yields.bind (hdrafting ⟨graph, Array.replicate graph.nodes.size none, #[], []⟩ h)
    fun _ _ => trivial

end ApiScaffold.Yaml
