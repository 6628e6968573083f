import Mathlib
import ApiScaffold.Proofs.Yaml.Fault
import ApiScaffold.Yaml.Node.Grammar

/-! Reading nodes from tokens. Every fault that is met there is one of the document text, unless the tokens
themselves end in another one. -/

namespace ApiScaffold.Yaml

namespace Reading

/-- A step that keeps a stream of tokens that ends in no fault of content. -/
abbrev Spares {α : Type} (step : Reading α) : Prop :=
  Keeps (fun supply : Supply => ∀ fault ∈ supply.stream.fault, fault.IsReported) step

variable {α β : Type}

/-! ### Tokens and properties -/

theorem spares_peek : Spares peek := by
  intro supply h
  unfold peek
  refine .get_bind ?_
  split
  · exact h
  · rename_i fault _ hfault
    exact h fault hfault
  · trivial

theorem spares_next : Spares next :=
  spares_peek.bind fun token => Keeps.bind (.of_modify fun _ h => h) fun _ => .of_pure token

theorem spares_properties : Spares properties := by
  unfold properties
  refine spares_peek.bind fun first => ?_
  split
  · refine spares_next.bind fun _ => spares_peek.bind fun second => ?_
    split
    · exact spares_next.bind fun _ => .of_pure _
    · exact .of_pure _
  · refine spares_next.bind fun _ => spares_peek.bind fun second => ?_
    split
    · exact spares_next.bind fun _ => .of_pure _
    · exact .of_pure _
  · exact .of_pure _

theorem spares_resolveTag (properties : Properties) : Spares (resolveTag properties) := by
  intro supply h
  unfold resolveTag
  split
  · exact h
  · exact h
  · refine .get_bind ?_
    split
    · exact h
    · trivial

theorem spares_addNode (anchor : Option String) (node : Node) : Spares (addNode anchor node) :=
  fun _ h => h

theorem spares_addCollection (anchor : Option String) (tag : Tag) (start : Mark) (empty : NodeContent)
    {content : Reading NodeContent} (h : Spares content) :
    Spares (addCollection anchor tag start empty content) :=
  (spares_addNode anchor _).bind fun id => h.bind fun _ =>
    Keeps.bind (.of_modify fun _ h => h) fun _ => .of_pure id

theorem spares_emptyScalar (mark : Mark) : Spares (emptyScalar mark) := spares_addNode none _

theorem spares_checkAnchor (anchor : Option String) (start : Mark) : Spares (checkAnchor anchor start) := by
  intro supply h
  unfold checkAnchor
  split
  · exact h
  · refine .get_bind ?_
    split
    · exact h
    · trivial

/-! ### Nodes -/

/-- All readers of nodes and of parts of collections spare, given the same fuel. -/
structure SparesNodes (fuel : Nat) : Prop where
  node : ∀ position, Spares (Reading.node position fuel)
  blockItems : ∀ start, Spares (Reading.blockItems start fuel)
  plainItems : Spares (Reading.plainItems fuel)
  blockPart : ∀ mark, Spares (Reading.blockPart mark fuel)
  blockEntries : ∀ start, Spares (Reading.blockEntries start fuel)
  flowPart : ∀ closing mark afterKey, Spares (Reading.flowPart closing mark afterKey fuel)
  flowValue : ∀ closing, Spares (Reading.flowValue closing fuel)
  flowItems : ∀ start first, Spares (Reading.flowItems start first fuel)
  flowEntries : ∀ start first, Spares (Reading.flowEntries start first fuel)

theorem sparesNodes_zero : SparesNodes 0 := by
  constructor <;> intros <;> exact .of_throw trivial

section Succ

variable {fuel : Nat} (h : SparesNodes fuel)

include h

theorem spares_node_succ (position : Position) : Spares (node position (fuel + 1)) := by
  unfold node
  refine spares_peek.bind fun first => ?_
  split
  · refine spares_next.bind fun _ supply hsupply => .get_bind ?_
    split
    · exact hsupply
    · trivial
  · refine spares_properties.bind fun properties => (spares_resolveTag properties).bind fun tag =>
      spares_peek.bind fun token => ?_
    -- Whatever the node is, its anchor is checked before it is added.
    have hcollection : ∀ tag start empty {content : Reading NodeContent}, Spares content → Spares (do
        checkAnchor properties.anchor start
        addCollection properties.anchor tag start empty content) := fun tag start empty _ hcontent =>
      (spares_checkAnchor _ start).bind fun _ => spares_addCollection _ tag start empty hcontent
    have hscalar : ∀ start node, Spares (do
        checkAnchor properties.anchor start
        addNode properties.anchor node) := fun start node =>
      (spares_checkAnchor _ start).bind fun _ => spares_addNode _ node
    dsimp only
    split
    · exact hcollection _ _ _ h.plainItems.map
    · exact spares_next.bind fun _ => hscalar _ _
    · exact hcollection _ _ _ (spares_next.bind fun _ => h.flowItems _ _).map
    · exact hcollection _ _ _ (spares_next.bind fun _ => h.flowEntries _ _).map
    · exact hcollection _ _ _ (spares_next.bind fun _ => h.blockItems _).map
    · exact hcollection _ _ _ (spares_next.bind fun _ => h.blockItems _).map
    · exact hcollection _ _ _ (spares_next.bind fun _ => h.blockEntries _).map
    · exact hcollection _ _ _ (spares_next.bind fun _ => h.blockEntries _).map
    · split
      · exact hscalar _ _
      · exact .of_throw trivial

theorem spares_blockItems_succ (start : Mark) : Spares (blockItems start (fuel + 1)) := by
  have hrest : ∀ item, Spares (do return item :: (← blockItems start fuel)) := fun item =>
    (h.blockItems start).bind fun items => .of_pure (item :: items)
  unfold blockItems
  refine spares_next.bind fun token => ?_
  split
  · refine spares_peek.bind fun following => ?_
    dsimp only
    split
    · exact (spares_emptyScalar _).bind hrest
    · exact (spares_emptyScalar _).bind hrest
    · exact (h.node _).bind hrest
  · exact .of_pure []
  · exact .of_throw trivial

theorem spares_plainItems_succ : Spares (plainItems (fuel + 1)) := by
  have hrest : ∀ item, Spares (do return item :: (← plainItems fuel)) := fun item =>
    h.plainItems.bind fun items => .of_pure (item :: items)
  unfold plainItems
  refine spares_peek.bind fun token => ?_
  split
  · refine spares_next.bind fun _ => spares_peek.bind fun following => ?_
    dsimp only
    split
    · exact (spares_emptyScalar _).bind hrest
    · exact (spares_emptyScalar _).bind hrest
    · exact (spares_emptyScalar _).bind hrest
    · exact (spares_emptyScalar _).bind hrest
    · exact (h.node _).bind hrest
  · exact .of_pure []

theorem spares_blockPart_succ (mark : Token) : Spares (blockPart mark (fuel + 1)) := by
  unfold blockPart
  refine spares_peek.bind fun following => ?_
  split
  · exact spares_emptyScalar _
  · exact spares_emptyScalar _
  · exact spares_emptyScalar _
  · exact h.node _

theorem spares_blockEntries_succ (start : Mark) : Spares (blockEntries start (fuel + 1)) := by
  have hrest : ∀ key value, Spares (do return (key, value) :: (← blockEntries start fuel)) :=
    fun key value => (h.blockEntries start).bind fun entries => .of_pure ((key, value) :: entries)
  unfold blockEntries
  refine spares_next.bind fun token => ?_
  split
  · refine (h.blockPart token).bind fun key => spares_peek.bind fun mark => ?_
    dsimp only
    split
    · exact spares_next.bind fun _ => (h.blockPart mark).bind (hrest key)
    · exact (spares_emptyScalar _).bind (hrest key)
  · exact .of_pure []
  · exact .of_throw trivial

theorem spares_flowPart_succ (closing : TokenKind) (mark : Token) (afterKey : Bool) :
    Spares (flowPart closing mark afterKey (fuel + 1)) := by
  unfold flowPart
  refine spares_peek.bind fun following => ?_
  dsimp only
  split
  · exact spares_emptyScalar _
  · exact h.node _

theorem spares_flowValue_succ (closing : TokenKind) : Spares (flowValue closing (fuel + 1)) := by
  unfold flowValue
  refine spares_peek.bind fun mark => ?_
  split
  · exact spares_next.bind fun _ => h.flowPart closing mark false
  · exact spares_emptyScalar _

theorem spares_flowItems_succ (start : Mark) (first : Bool) :
    Spares (flowItems start first (fuel + 1)) := by
  have hrest : ∀ item, Spares (do return item :: (← flowItems start false fuel)) := fun item =>
    (h.flowItems start false).bind fun items => .of_pure (item :: items)
  unfold flowItems
  refine spares_peek.bind fun token => ?_
  extract_lets item
  have hitem : Spares (item ()) := by
    refine spares_peek.bind fun token => ?_
    split
    · exact spares_next.bind fun _ => .of_pure []
    · exact spares_next.bind fun _ => (h.flowPart _ _ _).bind fun key => (h.flowValue _).bind fun value =>
        (spares_addNode _ _).bind hrest
    · exact (h.node _).bind hrest
  split
  · exact spares_next.bind fun _ => .of_pure []
  · split
    · split
      · exact spares_next.bind fun _ => hitem
      · exact Keeps.bind (.of_throw trivial) fun _ => hitem
    · exact hitem

theorem spares_flowEntries_succ (start : Mark) (first : Bool) :
    Spares (flowEntries start first (fuel + 1)) := by
  have hrest : ∀ key value, Spares (do return (key, value) :: (← flowEntries start false fuel)) :=
    fun key value => (h.flowEntries start false).bind fun entries => .of_pure ((key, value) :: entries)
  unfold flowEntries
  refine spares_peek.bind fun token => ?_
  extract_lets entry
  have hentry : Spares (entry ()) := by
    refine spares_peek.bind fun token => ?_
    split
    · exact spares_next.bind fun _ => .of_pure []
    · exact spares_next.bind fun _ => (h.flowPart _ _ _).bind fun key =>
        (h.flowValue _).bind (hrest key)
    · exact (h.node _).bind fun key => spares_peek.bind fun _ => (spares_emptyScalar _).bind (hrest key)
  split
  · exact spares_next.bind fun _ => .of_pure []
  · split
    · split
      · exact spares_next.bind fun _ => hentry
      · exact Keeps.bind (.of_throw trivial) fun _ => hentry
    · exact hentry

end Succ

theorem sparesNodes (fuel : Nat) : SparesNodes fuel := by
  induction fuel with
  | zero => exact sparesNodes_zero
  | succ fuel ih =>
      exact ⟨spares_node_succ ih, spares_blockItems_succ ih, spares_plainItems_succ ih,
        spares_blockPart_succ ih, spares_blockEntries_succ ih, spares_flowPart_succ ih,
        spares_flowValue_succ ih, spares_flowItems_succ ih, spares_flowEntries_succ ih⟩

/-! ### Documents -/

theorem spares_directives (fuel : Nat) (version : Bool) (handles : List (String × String)) :
    Spares (directives version handles fuel) := by
  induction fuel generalizing version handles with
  | zero => exact .of_pure handles
  | succ fuel ih =>
      unfold directives
      refine spares_peek.bind fun token => ?_
      split
      · refine spares_next.bind fun _ => ?_
        have hversion : ∀ major, Spares (do
            if major != 1 then throw (.structuralAt .incompatibleVersion token.start)
            directives true handles fuel) := by
          intro major
          split
          · exact Keeps.bind (.of_throw trivial) fun _ => ih true handles
          · exact ih true handles
        split
        · dsimp only
          split
          · exact Keeps.bind (.of_throw trivial) fun _ => hversion _
          · exact hversion _
        · dsimp only
          split
          · exact Keeps.bind (.of_throw trivial) fun _ => ih _ _
          · exact ih _ _
        · exact ih _ _
      · exact .of_pure handles

theorem spares_skipDocumentEnds (fuel : Nat) : Spares (skipDocumentEnds fuel) := by
  induction fuel with
  | zero => exact .of_pure ()
  | succ fuel ih =>
      unfold skipDocumentEnds
      refine spares_peek.bind fun token => ?_
      split
      · exact spares_next.bind fun _ => ih
      · exact .of_pure _

theorem spares_documentStart (fuel : Nat) : Spares (documentStart fuel) := by
  unfold documentStart
  refine (spares_skipDocumentEnds fuel).bind fun _ => spares_peek.bind fun token => ?_
  split
  · exact .of_pure none
  · refine (spares_directives fuel false []).bind fun handles =>
      Keeps.bind (.of_modify fun _ h => h) fun _ => spares_peek.bind fun sign => ?_
    split
    · exact spares_next.bind fun _ => .of_pure _
    · exact .of_throw trivial

theorem spares_documentContent (fuel : Nat) : Spares (documentContent fuel) := by
  unfold documentContent
  refine spares_peek.bind fun token => ?_
  split
  · exact spares_emptyScalar _
  · exact spares_emptyScalar _
  · exact spares_emptyScalar _
  · exact spares_emptyScalar _
  · exact (sparesNodes fuel).node _

theorem spares_document (fuel : Nat) : Spares (document fuel) := by
  unfold document
  refine spares_next.bind fun _ => spares_peek.bind fun first => ?_
  -- A document with a start mark and one without are read apart and end alike: no other one may follow.
  extract_lets finish
  have hfinish : ∀ root, Spares (finish root) := by
    intro root
    unfold finish
    split
    · exact .of_pure none
    · refine (spares_documentStart fuel).bind fun mark => ?_
      split
      · exact .of_pure _
      · exact fun _ _ => trivial
  split
  iterate 3
    · refine (spares_documentStart fuel).bind fun mark => ?_
      split
      · exact Keeps.bind (.of_pure none) hfinish
      · exact (spares_documentContent fuel).map.bind hfinish
  · exact Keeps.bind (.of_modify fun _ h => h) fun _ => ((sparesNodes fuel).node .block).map.bind hfinish

end Reading

/-- **Tokens are read without a fault of content**, unless they end in one. -/
theorem TokenStream.yields_toGraph {stream : TokenStream} (h : ∀ fault ∈ stream.fault, fault.IsReported) :
    Yields (fun _ => True) stream.toGraph? :=
  Yields.bind (Reading.spares_document _ { stream := stream } h) fun _ _ => trivial

end ApiScaffold.Yaml
