import Mathlib
import ApiScaffold.Proofs.Relations.Circle

/-! The search for cycles as a sequence of moves. Each move keeps the state consistent: the path holds
the nodes of the stack, leads along edges and has no repeats, and every recorded cycle is a circle of
the graph. Each move also takes one off what remains to be done, so a search from a node ends with an
empty stack. -/

namespace ApiScaffold

namespace CycleSearch

variable {graph : Graph} {search next : CycleSearch}

/-- The state in which the deepest node has looked at its next neighbour. -/
def advance (search : CycleSearch) (frame : Frame) (below : List Frame) : CycleSearch :=
  { search with stack := ⟨frame.node, frame.next + 1⟩ :: below }

/-- One move of a search with a node to examine: the node is left, or it looks at a neighbour that
closes a cycle, that is known, or that is entered. -/
inductive Move (graph : Graph) (search : CycleSearch) : CycleSearch → Prop where
  | leave {frame : Frame} {below : List Frame} (hstack : search.stack = frame :: below)
      (hlast : (graph.neighbours frame.node)[frame.next]? = none) : Move graph search search.leave
  | close {frame : Frame} {below : List Frame} {node : String}
      (hstack : search.stack = frame :: below)
      (hnext : (graph.neighbours frame.node)[frame.next]? = some node)
      (hpath : node ∈ search.path) :
      Move graph search ((search.advance frame below).record (closedCycle search.path node))
  | skip {frame : Frame} {below : List Frame} {node : String}
      (hstack : search.stack = frame :: below)
      (hnext : (graph.neighbours frame.node)[frame.next]? = some node)
      (hpath : node ∉ search.path) (hvisited : node ∈ search.visited) :
      Move graph search (search.advance frame below)
  | enter {frame : Frame} {below : List Frame} {node : String}
      (hstack : search.stack = frame :: below)
      (hnext : (graph.neighbours frame.node)[frame.next]? = some node)
      (hpath : node ∉ search.path) (hfresh : node ∉ search.visited) :
      Move graph search ((search.advance frame below).enter node)

theorem neighbours?_bind_getElem? (graph : Graph) (node : String) (i : Nat) :
    (graph.neighbours? node).bind (·[i]?) = (graph.neighbours node)[i]? := by
  rw [Graph.neighbours]
  cases graph.neighbours? node <;> rfl

theorem look_of_mem_path (search : CycleSearch) {node : String} (hpath : node ∈ search.path) :
    search.look node = search.record (closedCycle search.path node) := by
  simp only [look, List.contains_eq_mem, hpath, decide_true, if_true]

theorem look_of_visited (search : CycleSearch) {node : String} (hpath : node ∉ search.path)
    (hvisited : node ∈ search.visited) : search.look node = search := by
  simp only [look, List.contains_eq_mem, hpath, hvisited, decide_true, decide_false, if_true,
    Bool.false_eq_true, if_false]

theorem look_of_fresh (search : CycleSearch) {node : String} (hpath : node ∉ search.path)
    (hfresh : node ∉ search.visited) : search.look node = search.enter node := by
  simp only [look, List.contains_eq_mem, hpath, hfresh, decide_false, Bool.false_eq_true, if_false]

/-- A step with a node to examine is a move. -/
theorem step_move (graph : Graph) (search : CycleSearch) (h : search.stack ≠ []) :
    Move graph search (step graph search) := by
  cases hstack : search.stack with
  | nil => exact absurd hstack h
  | cons frame below =>
      simp only [step, hstack, neighbours?_bind_getElem?]
      cases hnext : (graph.neighbours frame.node)[frame.next]? with
      | none => exact .leave hstack hnext
      | some node =>
          change Move graph search ((search.advance frame below).look node)
          by_cases hpath : node ∈ search.path
          · rw [look_of_mem_path (search.advance frame below) hpath]
            exact .close hstack hnext hpath
          · by_cases hvisited : node ∈ search.visited
            · rw [look_of_visited (search.advance frame below) hpath hvisited]
              exact .skip hstack hnext hpath hvisited
            · rw [look_of_fresh (search.advance frame below) hpath hvisited]
              exact .enter hstack hnext hpath hvisited

/-! ### Recorded cycles -/

@[simp] theorem record_stack (search : CycleSearch) (cycle : List String) :
    (search.record cycle).stack = search.stack := by
  rw [record]
  split <;> rfl

@[simp] theorem record_path (search : CycleSearch) (cycle : List String) :
    (search.record cycle).path = search.path := by
  rw [record]
  split <;> rfl

@[simp] theorem record_visited (search : CycleSearch) (cycle : List String) :
    (search.record cycle).visited = search.visited := by
  rw [record]
  split <;> rfl

theorem record_cycles (search : CycleSearch) (cycle : List String) :
    (search.record cycle).cycles = search.cycles ∨
      (search.record cycle).cycles = search.cycles ++ [cycle] := by
  rw [record]
  split
  · exact Or.inl rfl
  · exact Or.inr rfl

/-- After a cycle was recorded, one with its members is known. -/
theorem record_covers (search : CycleSearch) (cycle : List String) :
    ∃ known ∈ (search.record cycle).cycles, ∀ name, name ∈ cycle ↔ name ∈ known := by
  rw [record]
  split
  · rename_i hany
    obtain ⟨known, hknown, hsame⟩ := List.any_eq_true.mp hany
    exact ⟨known, hknown, sameMembers_iff.mp hsame⟩
  · exact ⟨cycle, List.mem_append_right _ (List.mem_singleton_self cycle), fun _ => Iff.rfl⟩

theorem cycles_subset_record (search : CycleSearch) (cycle : List String) :
    search.cycles ⊆ (search.record cycle).cycles := by
  rcases record_cycles search cycle with h | h
  · rw [h]
    exact List.Subset.refl _
  · rw [h]
    exact List.subset_append_left _ _

/-! ### Consistency -/

/-- What holds of every state of a search. -/
structure Consistent (graph : Graph) (search : CycleSearch) : Prop where
  path_eq : search.path = search.stack.map Frame.node
  path_nodup : search.path.Nodup
  path_visited : ∀ node ∈ search.path, node ∈ search.visited
  chain : search.path.IsChain fun child parent => graph.Edge parent child
  next_le : ∀ frame ∈ search.stack, frame.next ≤ (graph.neighbours frame.node).length
  visited_nodup : search.visited.Nodup
  visited_nodes : ∀ node ∈ search.visited, node ∈ graph.nodes
  circles : ∀ cycle ∈ search.cycles, graph.IsCircle cycle

theorem Consistent.empty (graph : Graph) : Consistent graph {} where
  path_eq := rfl
  path_nodup := List.nodup_nil
  path_visited _ h := absurd h List.not_mem_nil
  chain := List.isChain_nil
  next_le _ h := absurd h List.not_mem_nil
  visited_nodup := List.nodup_nil
  visited_nodes _ h := absurd h List.not_mem_nil
  circles _ h := absurd h List.not_mem_nil

theorem Consistent.path_cons (h : Consistent graph search) {frame : Frame} {below : List Frame}
    (hstack : search.stack = frame :: below) :
    search.path = frame.node :: below.map Frame.node := by
  rw [h.path_eq, hstack, List.map_cons]

theorem Consistent.leave (h : Consistent graph search) : Consistent graph search.leave where
  path_eq := by
    change search.path.tail = search.stack.tail.map Frame.node
    rw [h.path_eq, List.map_tail]
  path_nodup := h.path_nodup.tail
  path_visited node hnode := h.path_visited node (List.mem_of_mem_tail hnode)
  chain := h.chain.tail
  next_le frame hframe := h.next_le frame (List.mem_of_mem_tail hframe)
  visited_nodup := h.visited_nodup
  visited_nodes := h.visited_nodes
  circles := h.circles

theorem Consistent.advance (h : Consistent graph search) {frame : Frame} {below : List Frame}
    {node : String} (hstack : search.stack = frame :: below)
    (hnext : (graph.neighbours frame.node)[frame.next]? = some node) :
    Consistent graph (search.advance frame below) where
  path_eq := by
    change search.path = frame.node :: below.map Frame.node
    exact h.path_cons hstack
  path_nodup := h.path_nodup
  path_visited := h.path_visited
  chain := h.chain
  next_le other hother := by
    rcases List.mem_cons.mp hother with rfl | hbelow
    · obtain ⟨hlt, -⟩ := List.getElem?_eq_some_iff.mp hnext
      exact hlt
    · exact h.next_le other (hstack ▸ List.mem_cons_of_mem _ hbelow)
  visited_nodup := h.visited_nodup
  visited_nodes := h.visited_nodes
  circles := h.circles

theorem Consistent.record (h : Consistent graph search) {cycle : List String}
    (hcycle : graph.IsCircle cycle) : Consistent graph (search.record cycle) where
  path_eq := by rw [record_path, record_stack, h.path_eq]
  path_nodup := by rw [record_path]; exact h.path_nodup
  path_visited := by rw [record_path, record_visited]; exact h.path_visited
  chain := by rw [record_path]; exact h.chain
  next_le := by rw [record_stack]; exact h.next_le
  visited_nodup := by rw [record_visited]; exact h.visited_nodup
  visited_nodes := by rw [record_visited]; exact h.visited_nodes
  circles known hknown := by
    rcases record_cycles search cycle with hsame | hmore
    · exact h.circles known (hsame ▸ hknown)
    · rw [hmore, List.mem_append, List.mem_singleton] at hknown
      rcases hknown with hold | rfl
      · exact h.circles known hold
      · exact hcycle

theorem Consistent.enter (h : Consistent graph search) {node : String}
    (hnode : node ∈ graph.nodes) (hfresh : node ∉ search.visited)
    (hedge : ∀ top ∈ search.path.head?, graph.Edge top node) :
    Consistent graph (search.enter node) where
  path_eq := by
    change node :: search.path = node :: search.stack.map Frame.node
    rw [h.path_eq]
  path_nodup := List.nodup_cons.mpr ⟨fun hmem => hfresh (h.path_visited node hmem), h.path_nodup⟩
  path_visited other hother := by
    rcases List.mem_cons.mp hother with rfl | hpath
    · exact List.mem_append_right _ (List.mem_singleton_self other)
    · exact List.mem_append_left _ (h.path_visited other hpath)
  chain := List.isChain_cons.mpr ⟨hedge, h.chain⟩
  next_le frame hframe := by
    rcases List.mem_cons.mp hframe with rfl | hbelow
    · exact Nat.zero_le _
    · exact h.next_le frame hbelow
  visited_nodup := by
    refine List.nodup_append.mpr ⟨h.visited_nodup, List.nodup_singleton node, ?_⟩
    rintro other hother target htarget rfl
    rw [List.mem_singleton] at htarget
    exact hfresh (htarget ▸ hother)
  visited_nodes other hother := by
    rcases List.mem_append.mp hother with hold | hnew
    · exact h.visited_nodes other hold
    · rw [List.mem_singleton.mp hnew]
      exact hnode
  circles := h.circles

/-- Every move keeps a state consistent. -/
theorem Consistent.move (htidy : graph.Tidy) (h : Consistent graph search)
    (hmove : Move graph search next) : Consistent graph next := by
  cases hmove with
  | leave hstack hlast => exact h.leave
  | close hstack hnext hpath =>
      rename_i frame below node
      have hedge : graph.Edge frame.node node := List.mem_of_getElem? hnext
      have htop := h.path_cons hstack
      rw [htop] at hpath ⊢
      exact (h.advance hstack hnext).record (closedCycle_isCircle (htop ▸ h.path_nodup)
        (htop ▸ h.chain) hedge (htidy.edge_ne _ _ hedge) hpath).1
  | skip hstack hnext hpath hvisited => exact h.advance hstack hnext
  | enter hstack hnext hpath hfresh =>
      rename_i frame below node
      have hedge : graph.Edge frame.node node := List.mem_of_getElem? hnext
      refine (h.advance hstack hnext).enter (htidy.edge_mem _ _ hedge) hfresh ?_
      intro top htop
      change top ∈ search.path.head? at htop
      rw [h.path_cons hstack, List.head?_cons, Option.mem_some_iff] at htop
      exact htop ▸ hedge

end CycleSearch

end ApiScaffold
