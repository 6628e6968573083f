import Mathlib
import ApiScaffold.Proofs.Relations.Termination

/-! The search misses no cycle. In the order in which nodes are left, an edge leads to a node that was
left earlier, or a recorded cycle holds both of its ends. A walk back to its start cannot lead to nodes
left earlier all the way, so one of its edges lies on a recorded cycle. -/

namespace ApiScaffold

namespace CycleSearch

variable {graph : Graph} {search next : CycleSearch} {cycles later : List (List String)}
  {done more : List String}

/-- A known cycle holds both ends of an edge. -/
def Covered (cycles : List (List String)) (source target : String) : Prop :=
  ∃ cycle ∈ cycles, source ∈ cycle ∧ target ∈ cycle

/-- Every edge of a node that was left leads to one left before it or is covered; the node left last
comes first. -/
def Settled (graph : Graph) (cycles : List (List String)) : List String → Prop
  | [] => True
  | node :: earlier =>
    (∀ target ∈ graph.neighbours node, target ∈ earlier ∨ Covered cycles node target) ∧
      Settled graph cycles earlier

/-- The neighbours that a node under examination has looked at. -/
def seen (graph : Graph) (frame : Frame) : List String :=
  (graph.neighbours frame.node).take frame.next

/-- Every edge looked at so far leads to a node that was left, is covered, or is the one along which
the search went on. -/
def Explored (graph : Graph) (cycles : List (List String)) (done : List String) :
    Option String → List Frame → Prop
  | _, [] => True
  | child, frame :: below =>
    (∀ target ∈ seen graph frame,
      target ∈ done ∨ Covered cycles frame.node target ∨ child = some target) ∧
      Explored graph cycles done (some frame.node) below

/-- The visited nodes are those that were left, given in order, and those on the path; what was looked
at is settled. -/
structure Exhaustive (graph : Graph) (done : List String) (search : CycleSearch) : Prop where
  visited_iff : ∀ node, node ∈ search.visited ↔ node ∈ done ∨ node ∈ search.path
  done_nodup : done.Nodup
  done_path : ∀ node ∈ done, node ∉ search.path
  settled : Settled graph search.cycles done
  explored : Explored graph search.cycles done none search.stack

theorem Covered.mono (hsub : cycles ⊆ later) {source target : String}
    (h : Covered cycles source target) : Covered later source target := by
  obtain ⟨cycle, hmem, hends⟩ := h
  exact ⟨cycle, hsub hmem, hends⟩

theorem Settled.mono (hsub : cycles ⊆ later) (h : Settled graph cycles done) :
    Settled graph later done := by
  induction done with
  | nil => trivial
  | cons node earlier ih =>
      refine ⟨fun target htarget => ?_, ih h.2⟩
      rcases h.1 target htarget with hearlier | hcovered
      · exact Or.inl hearlier
      · exact Or.inr (hcovered.mono hsub)

theorem Explored.mono (hcycles : cycles ⊆ later) (hdone : done ⊆ more) {child : Option String}
    {stack : List Frame} (h : Explored graph cycles done child stack) :
    Explored graph later more child stack := by
  induction stack generalizing child with
  | nil => trivial
  | cons frame below ih =>
      refine ⟨fun target htarget => ?_, ih h.2⟩
      rcases h.1 target htarget with hleft | hcovered | hchild
      · exact Or.inl (hdone hleft)
      · exact Or.inr (Or.inl (hcovered.mono hcycles))
      · exact Or.inr (Or.inr hchild)

/-- Once the node along which the search went on is left, its edge is settled like the others. -/
theorem Explored.return_from {child : String} (hchild : child ∈ done) {stack : List Frame}
    (h : Explored graph cycles done (some child) stack) : Explored graph cycles done none stack := by
  cases stack with
  | nil => trivial
  | cons frame below =>
      refine ⟨fun target htarget => ?_, h.2⟩
      rcases h.1 target htarget with hleft | hcovered | heq
      · exact Or.inl hleft
      · exact Or.inr (Or.inl hcovered)
      · exact Or.inl (Option.some.inj heq ▸ hchild)

theorem mem_seen_succ {frame : Frame} {node target : String}
    (hnext : (graph.neighbours frame.node)[frame.next]? = some node) :
    target ∈ seen graph ⟨frame.node, frame.next + 1⟩ ↔ target ∈ seen graph frame ∨ target = node := by
  rw [seen, List.take_add_one, hnext, Option.toList_some, List.mem_append, List.mem_singleton, seen]

/-- A neighbour that is settled, or along which the search goes on, may be counted as looked at. -/
theorem Explored.advance {child : Option String} {frame : Frame} {below : List Frame}
    {node : String} (hnext : (graph.neighbours frame.node)[frame.next]? = some node)
    (hnode : node ∈ done ∨ Covered cycles frame.node node ∨ child = some node)
    (h : Explored graph cycles done none (frame :: below)) :
    Explored graph cycles done child (⟨frame.node, frame.next + 1⟩ :: below) := by
  refine ⟨fun target htarget => ?_, h.2⟩
  rcases (mem_seen_succ hnext).mp htarget with hseen | rfl
  · rcases h.1 target hseen with hleft | hcovered | hnone
    · exact Or.inl hleft
    · exact Or.inr (Or.inl hcovered)
    · cases hnone
  · exact hnode

theorem Exhaustive.empty (graph : Graph) : Exhaustive graph [] {} where
  visited_iff node := by simp
  done_nodup := List.nodup_nil
  done_path node h := absurd h List.not_mem_nil
  settled := trivial
  explored := trivial

theorem Exhaustive.leave (hconsistent : Consistent graph search) (h : Exhaustive graph done search)
    {frame : Frame} {below : List Frame} (hstack : search.stack = frame :: below)
    (hlast : (graph.neighbours frame.node)[frame.next]? = none) :
    Exhaustive graph (frame.node :: done) search.leave := by
  have hpath := hconsistent.path_cons hstack
  have hleave : search.leave.path = below.map Frame.node := by
    change search.path.tail = _
    rw [hpath, List.tail_cons]
  have hnodup := hconsistent.path_nodup
  rw [hpath, List.nodup_cons] at hnodup
  have hexplored := h.explored
  rw [hstack] at hexplored
  have hall : seen graph frame = graph.neighbours frame.node :=
    List.take_of_length_le (List.getElem?_eq_none_iff.mp hlast)
  refine ⟨fun node => ?_, ?_, ?_, ⟨fun target htarget => ?_, h.settled⟩, ?_⟩
  · change node ∈ search.visited ↔ _
    rw [h.visited_iff, hleave, hpath, List.mem_cons, List.mem_cons]
    tauto
  · exact List.nodup_cons.mpr
      ⟨fun hmem => h.done_path _ hmem (hpath ▸ List.mem_cons_self), h.done_nodup⟩
  · intro node hnode
    rw [hleave]
    rcases List.mem_cons.mp hnode with rfl | hdone
    · exact hnodup.1
    · exact fun hmem => h.done_path node hdone (hpath ▸ List.mem_cons_of_mem _ hmem)
  · rcases hexplored.1 target (hall ▸ htarget) with hleft | hcovered | hnone
    · exact Or.inl hleft
    · exact Or.inr hcovered
    · cases hnone
  · change Explored graph search.cycles _ none search.stack.tail
    rw [hstack, List.tail_cons]
    exact (hexplored.2.mono (List.Subset.refl _) (List.subset_cons_self _ _)).return_from
      List.mem_cons_self

theorem Exhaustive.close (hconsistent : Consistent graph search) (htidy : graph.Tidy)
    (h : Exhaustive graph done search) {frame : Frame} {below : List Frame} {node : String}
    (hstack : search.stack = frame :: below)
    (hnext : (graph.neighbours frame.node)[frame.next]? = some node) (hpath : node ∈ search.path) :
    Exhaustive graph done
      ((search.advance frame below).record (closedCycle search.path node)) := by
  have htop := hconsistent.path_cons hstack
  have hedge : graph.Edge frame.node node := List.mem_of_getElem? hnext
  have hsub := cycles_subset_record (search.advance frame below) (closedCycle search.path node)
  have hends : frame.node ∈ closedCycle search.path node ∧ node ∈ closedCycle search.path node := by
    rw [htop] at hpath ⊢
    exact (closedCycle_isCircle (htop ▸ hconsistent.path_nodup) (htop ▸ hconsistent.chain) hedge
      (htidy.edge_ne _ _ hedge) hpath).2
  have hcovered : Covered ((search.advance frame below).record
      (closedCycle search.path node)).cycles frame.node node := by
    obtain ⟨known, hknown, hsame⟩ := record_covers (search.advance frame below)
      (closedCycle search.path node)
    exact ⟨known, hknown, (hsame _).mp hends.1, (hsame _).mp hends.2⟩
  refine ⟨?_, h.done_nodup, ?_, h.settled.mono hsub, ?_⟩
  · rw [record_visited, record_path]
    exact h.visited_iff
  · rw [record_path]
    exact h.done_path
  · rw [record_stack]
    have hexplored := h.explored.mono hsub (List.Subset.refl done)
    rw [hstack] at hexplored
    exact hexplored.advance hnext (Or.inr (Or.inl hcovered))

theorem Exhaustive.skip (h : Exhaustive graph done search) {frame : Frame} {below : List Frame}
    {node : String} (hstack : search.stack = frame :: below)
    (hnext : (graph.neighbours frame.node)[frame.next]? = some node)
    (hpath : node ∉ search.path) (hvisited : node ∈ search.visited) :
    Exhaustive graph done (search.advance frame below) := by
  have hdone : node ∈ done := ((h.visited_iff node).mp hvisited).resolve_right hpath
  exact ⟨h.visited_iff, h.done_nodup, h.done_path, h.settled,
    (hstack ▸ h.explored).advance hnext (Or.inl hdone)⟩

/-- Entering a node keeps the state exhaustive if the edge to it counts as looked at. -/
theorem Exhaustive.enter_of_explored (h : Exhaustive graph done search) {node : String}
    (hfresh : node ∉ search.visited) {stack : List Frame}
    (hexplored : Explored graph search.cycles done (some node) stack) :
    Exhaustive graph done (({ search with stack := stack } : CycleSearch).enter node) := by
  refine ⟨fun other => ?_, h.done_nodup, ?_, h.settled, ⟨fun target htarget => ?_, hexplored⟩⟩
  · change other ∈ search.visited ++ [node] ↔ other ∈ done ∨ other ∈ node :: search.path
    rw [List.mem_append, h.visited_iff, List.mem_singleton, List.mem_cons]
    tauto
  · intro other hdone hmem
    rcases List.mem_cons.mp hmem with rfl | hpath
    · exact hfresh ((h.visited_iff other).mpr (Or.inl hdone))
    · exact h.done_path other hdone hpath
  · rw [seen, List.take_zero] at htarget
    exact absurd htarget List.not_mem_nil

/-- Every move keeps a state exhaustive. -/
theorem Exhaustive.move (htidy : graph.Tidy) (hconsistent : Consistent graph search)
    (h : Exhaustive graph done search) (hmove : Move graph search next) :
    ∃ done, Exhaustive graph done next := by
  cases hmove with
  | leave hstack hlast => exact ⟨_, h.leave hconsistent hstack hlast⟩
  | close hstack hnext hpath => exact ⟨done, h.close hconsistent htidy hstack hnext hpath⟩
  | skip hstack hnext hpath hvisited => exact ⟨done, h.skip hstack hnext hpath hvisited⟩
  | enter hstack hnext hpath hfresh =>
      exact ⟨done, h.enter_of_explored hfresh
        ((hstack ▸ h.explored).advance hnext (Or.inr (Or.inr rfl)))⟩

/-! ### Whole searches -/

/-- What holds between the searches from two nodes. -/
structure Rested (graph : Graph) (search : CycleSearch) : Prop where
  consistent : Consistent graph search
  stack_nil : search.stack = []
  exhaustive : ∃ done, Exhaustive graph done search

theorem Rested.empty (graph : Graph) : Rested graph {} :=
  ⟨Consistent.empty graph, rfl, [], Exhaustive.empty graph⟩

theorem visited_subset_move (hmove : Move graph search next) : search.visited ⊆ next.visited := by
  cases hmove with
  | leave => exact List.Subset.refl _
  | close =>
      rw [record_visited]
      exact List.Subset.refl _
  | skip => exact List.Subset.refl _
  | enter => exact List.subset_append_left _ _

theorem visited_subset_run (search : CycleSearch) (fuel : Nat) :
    search.visited ⊆ (run graph fuel search).visited := by
  apply run_induction (motive := fun state => search.visited ⊆ state.visited)
  · intro state next hsub hmove
    exact List.Subset.trans hsub (visited_subset_move hmove)
  · exact List.Subset.refl _

theorem visited_subset_searchFrom (start : String) :
    search.visited ⊆ (searchFrom graph search start).visited := by
  rw [searchFrom]
  split
  · exact List.Subset.refl _
  · exact List.Subset.trans (List.subset_append_left _ _)
      (visited_subset_run (search.enter start) _)

theorem mem_visited_searchFrom (start : String) :
    start ∈ (searchFrom graph search start).visited := by
  rw [searchFrom]
  split
  · rename_i hvisited
    exact List.contains_iff_mem.mp hvisited
  · exact visited_subset_run (search.enter start) _
      (List.mem_append_right _ (List.mem_singleton_self start))

/-- A search from a node rests again when it ends. -/
theorem Rested.searchFrom (htidy : graph.Tidy) (h : Rested graph search) {start : String}
    (hstart : start ∈ graph.nodes) : Rested graph (searchFrom graph search start) := by
  rw [CycleSearch.searchFrom]
  split
  · exact h
  · rename_i hvisited
    have hfresh : start ∉ search.visited := fun hmem => hvisited (List.contains_iff_mem.mpr hmem)
    obtain ⟨hconsistent, hstack, done, hexhaustive⟩ := h
    have hentered := hconsistent.enter_start hstack hstart hfresh
    have hstarted : Exhaustive graph done (search.enter start) :=
      hexhaustive.enter_of_explored hfresh (by rw [hstack]; trivial)
    have hrun := run_induction
      (motive := fun state => Consistent graph state ∧ ∃ done, Exhaustive graph done state)
      (fun _ _ hstate hmove => ⟨hstate.1.move htidy hmove,
        hstate.2.elim fun _ hdone => hdone.move htidy hstate.1 hmove⟩)
      graph.size ⟨hentered, done, hstarted⟩
    exact ⟨hrun.1, run_enter_stack htidy hconsistent hstack hstart hfresh le_rfl, hrun.2⟩

theorem foldl_searchFrom (htidy : graph.Tidy) (starts : List String)
    (hstarts : ∀ start ∈ starts, start ∈ graph.nodes) (h : Rested graph search) :
    Rested graph (starts.foldl (searchFrom graph) search) ∧
      search.visited ⊆ (starts.foldl (searchFrom graph) search).visited ∧
      ∀ start ∈ starts, start ∈ (starts.foldl (searchFrom graph) search).visited := by
  induction starts generalizing search with
  | nil => exact ⟨h, List.Subset.refl _, fun _ hmem => absurd hmem List.not_mem_nil⟩
  | cons first rest ih =>
      rw [List.forall_mem_cons] at hstarts
      obtain ⟨hrested, hsub, hvisited⟩ := ih hstarts.2 (h.searchFrom htidy hstarts.1)
      refine ⟨hrested, List.Subset.trans (visited_subset_searchFrom first) hsub, ?_⟩
      rw [List.forall_mem_cons]
      exact ⟨hsub (mem_visited_searchFrom first), hvisited⟩

/-- The whole search leaves every node, and what it found is settled and sound. -/
theorem exists_settled (htidy : graph.Tidy) :
    ∃ done : List String, done.Nodup ∧ (∀ node ∈ graph.nodes, node ∈ done) ∧
      Settled graph graph.cycles done ∧ ∀ cycle ∈ graph.cycles, graph.IsCircle cycle := by
  obtain ⟨⟨hconsistent, hstack, done, hexhaustive⟩, -, hvisited⟩ :=
    foldl_searchFrom htidy graph.nodes (fun _ h => h) (Rested.empty graph)
  refine ⟨done, hexhaustive.done_nodup, fun node hnode => ?_, hexhaustive.settled,
    hconsistent.circles⟩
  have hpath := hconsistent.path_eq
  rw [hstack, List.map_nil] at hpath
  refine ((hexhaustive.visited_iff node).mp (hvisited node hnode)).resolve_right ?_
  rw [hpath]
  exact List.not_mem_nil

/-! ### Closed walks -/

/-- An edge of a settled node is covered or leads on in the list. -/
theorem Settled.covered_or_idxOf_lt (hnodup : done.Nodup) (h : Settled graph cycles done)
    {source target : String} (hsource : source ∈ done) (hedge : graph.Edge source target) :
    Covered cycles source target ∨ target ∈ done ∧ done.idxOf source < done.idxOf target := by
  induction done with
  | nil => exact absurd hsource List.not_mem_nil
  | cons node earlier ih =>
      rw [List.nodup_cons] at hnodup
      have hlater : ∀ other ∈ earlier,
          (node :: earlier).idxOf other = earlier.idxOf other + 1 := by
        intro other hother
        exact List.idxOf_cons_ne earlier (ne_of_mem_of_not_mem hother hnodup.1).symm
      rcases List.mem_cons.mp hsource with rfl | hearlier
      · rcases h.1 target hedge with hmem | hcovered
        · refine Or.inr ⟨List.mem_cons_of_mem _ hmem, ?_⟩
          rw [List.idxOf_cons_self, hlater target hmem]
          exact Nat.succ_pos _
        · exact Or.inl hcovered
      · rcases ih hnodup.2 h.2 hearlier with hcovered | ⟨hmem, hlt⟩
        · exact Or.inl hcovered
        · refine Or.inr ⟨List.mem_cons_of_mem _ hmem, ?_⟩
          rw [hlater source hearlier, hlater target hmem]
          exact Nat.succ_lt_succ hlt

/-- A walk between settled nodes has a covered edge or leads on in the list. -/
theorem Settled.walk (hnodup : done.Nodup) (h : Settled graph cycles done) {source target : String}
    (hsource : source ∈ done) (hwalk : Relation.TransGen graph.Edge source target) :
    (∃ a b, Relation.ReflTransGen graph.Edge source a ∧ graph.Edge a b ∧
        Relation.ReflTransGen graph.Edge b target ∧ Covered cycles a b) ∨
      target ∈ done ∧ done.idxOf source < done.idxOf target := by
  induction hwalk with
  | single hedge =>
      rcases h.covered_or_idxOf_lt hnodup hsource hedge with hcovered | hlater
      · exact Or.inl ⟨_, _, .refl, hedge, .refl, hcovered⟩
      · exact Or.inr hlater
  | tail hwalk hedge ih =>
      rcases ih with ⟨a, b, hto, hab, hfrom, hcovered⟩ | ⟨hmem, hlt⟩
      · exact Or.inl ⟨a, b, hto, hab, hfrom.tail hedge, hcovered⟩
      · rcases h.covered_or_idxOf_lt hnodup hmem hedge with hcovered | ⟨hmem', hlt'⟩
        · exact Or.inl ⟨_, _, hwalk.to_reflTransGen, hedge, .refl, hcovered⟩
        · exact Or.inr ⟨hmem', hlt.trans hlt'⟩

/-- Every node that reaches itself is intertwined with the members of a cycle that is found. -/
theorem exists_cycle_of_transGen_self (htidy : graph.Tidy) {node : String}
    (h : Relation.TransGen graph.Edge node node) :
    ∃ cycle ∈ graph.cycles, ∀ member ∈ cycle, graph.Intertwined member node := by
  obtain ⟨done, hnodup, hall, hsettled, hcircles⟩ := exists_settled htidy
  have hnode : node ∈ graph.nodes := by
    obtain ⟨target, hedge, -⟩ := Relation.TransGen.head'_iff.mp h
    exact Graph.mem_nodes_of_edge hedge
  rcases hsettled.walk hnodup (hall node hnode) h with
    ⟨a, b, hto, hab, hfrom, cycle, hcycle, ha, -⟩ | ⟨-, hlt⟩
  · refine ⟨cycle, hcycle, fun member hmember => ?_⟩
    have hback : Relation.ReflTransGen graph.Edge a node := hfrom.head hab
    exact ((hcircles cycle hcycle).intertwined hmember ha).trans ⟨hback, hto⟩
  · exact absurd hlt (Nat.lt_irrefl _)

end CycleSearch

end ApiScaffold
