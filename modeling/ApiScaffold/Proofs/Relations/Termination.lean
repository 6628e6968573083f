import Mathlib
import ApiScaffold.Proofs.Relations.Search

/-! Searches end. What remains to be done are the nodes not entered yet with their edges, and the edges
that nodes on the stack have not looked at. Every move takes one off it, and a graph is as large as
what remains at the start, so every search from a node empties its stack. -/

namespace ApiScaffold

namespace CycleSearch

variable {graph : Graph} {search next : CycleSearch}

/-- How many moves a node takes that was not entered yet: one for each edge, and one to leave it. -/
def weight (graph : Graph) (node : String) : Nat := (graph.neighbours node).length + 1

/-- How many moves a node under examination still takes. -/
def movesLeft (graph : Graph) (frame : Frame) : Nat :=
  (graph.neighbours frame.node).length - frame.next + 1

/-- How many moves the nodes take that were not entered yet. -/
def unvisitedWeight (graph : Graph) (visited : List String) : Nat :=
  ((graph.nodes.filter (· ∉ visited)).map (weight graph)).sum

/-- How many moves remain. -/
def remaining (graph : Graph) (search : CycleSearch) : Nat :=
  unvisitedWeight graph search.visited + (search.stack.map (movesLeft graph)).sum

/-- Visiting a node takes its weight off the nodes not entered yet. -/
theorem unvisitedWeight_visit (hnodup : graph.nodes.Nodup) {visited : List String} {node : String}
    (hnode : node ∈ graph.nodes) (hfresh : node ∉ visited) :
    weight graph node + unvisitedWeight graph (visited ++ [node]) =
      unvisitedWeight graph visited := by
  have hmem : node ∈ graph.nodes.filter (· ∉ visited) := by
    rw [List.mem_filter, decide_eq_true_eq]
    exact ⟨hnode, hfresh⟩
  have herase : graph.nodes.filter (· ∉ visited ++ [node]) =
      (graph.nodes.filter (· ∉ visited)).erase node := by
    rw [(hnodup.filter _).erase_eq_filter, List.filter_filter]
    apply List.filter_congr
    intro other _
    simp only [List.mem_append, List.mem_singleton, not_or, bne, Bool.decide_and, Bool.and_comm]
    congr 1
    by_cases heq : other = node
    · simp [heq]
    · simp [heq]
  rw [unvisitedWeight, unvisitedWeight, herase]
  exact List.sum_map_erase (weight graph) hmem

theorem unvisitedWeight_nil (hnodup : graph.nodes.Nodup) :
    unvisitedWeight graph [] = graph.size := by
  rw [Graph.size_eq_sum hnodup, unvisitedWeight]
  congr 2
  exact List.filter_eq_self.mpr fun node _ => by simp

/-- Visited nodes only take off the weight of the others. -/
theorem unvisitedWeight_le (graph : Graph) (visited : List String) :
    unvisitedWeight graph visited ≤ unvisitedWeight graph [] := by
  apply List.Sublist.sum_le_sum
  · apply List.Sublist.map
    rw [show graph.nodes.filter (· ∉ ([] : List String)) = graph.nodes from
      List.filter_eq_self.mpr fun node _ => by simp]
    exact List.filter_sublist
  · exact fun _ _ => Nat.zero_le _

theorem remaining_enter (search : CycleSearch) (hnodup : graph.nodes.Nodup) {node : String}
    (hnode : node ∈ graph.nodes) (hfresh : node ∉ search.visited) :
    remaining graph (search.enter node) = remaining graph search := by
  have hvisit := unvisitedWeight_visit hnodup hnode hfresh
  change unvisitedWeight graph (search.visited ++ [node]) +
    (((⟨node, 0⟩ : Frame) :: search.stack).map (movesLeft graph)).sum = _
  rw [List.map_cons, List.sum_cons, remaining, ← hvisit, movesLeft, weight]
  simp only
  omega

theorem remaining_advance {frame : Frame} {below : List Frame} {node : String}
    (hstack : search.stack = frame :: below)
    (hnext : (graph.neighbours frame.node)[frame.next]? = some node) :
    remaining graph (search.advance frame below) + 1 = remaining graph search := by
  obtain ⟨hlt, -⟩ := List.getElem?_eq_some_iff.mp hnext
  change unvisitedWeight graph search.visited +
    (((⟨frame.node, frame.next + 1⟩ : Frame) :: below).map (movesLeft graph)).sum + 1 = _
  rw [remaining, hstack, List.map_cons, List.sum_cons, List.map_cons, List.sum_cons, movesLeft,
    movesLeft]
  simp only
  omega

/-- Every move takes one off what remains. -/
theorem Move.remaining_succ (htidy : graph.Tidy) (hconsistent : Consistent graph search)
    (hmove : Move graph search next) : remaining graph next + 1 = remaining graph search := by
  cases hmove with
  | leave hstack hlast =>
      rename_i frame below
      have hle := hconsistent.next_le frame (hstack ▸ List.mem_cons_self)
      have hge := List.getElem?_eq_none_iff.mp hlast
      change unvisitedWeight graph search.visited +
        (search.stack.tail.map (movesLeft graph)).sum + 1 = _
      rw [remaining, hstack, List.tail_cons, List.map_cons, List.sum_cons, movesLeft]
      omega
  | close hstack hnext hpath =>
      rw [← remaining_advance hstack hnext, remaining, record_visited, record_stack]
      rfl
  | skip hstack hnext hpath hvisited => exact remaining_advance hstack hnext
  | enter hstack hnext hpath hfresh =>
      rename_i frame below node
      have hnode := htidy.edge_mem _ _ (List.mem_of_getElem? hnext)
      rw [← remaining_advance hstack hnext]
      exact congrArg (· + 1) (remaining_enter (search.advance frame below)
        htidy.nodes_nodup hnode hfresh)

/-! ### Runs -/

/-- What every move keeps holds after a run. -/
theorem run_induction {motive : CycleSearch → Prop}
    (hmove : ∀ search next, motive search → Move graph search next → motive next) (fuel : Nat)
    (h : motive search) : motive (run graph fuel search) := by
  induction fuel generalizing search with
  | zero => exact h
  | succ fuel ih =>
      rw [run]
      split
      · exact h
      · rename_i hstack
        refine ih (hmove _ _ h (step_move graph search ?_))
        rintro hnil
        exact hstack (by rw [hnil]; rfl)

/-- A run with enough fuel empties its stack. -/
theorem run_stack (htidy : graph.Tidy) (h : Consistent graph search) {fuel : Nat}
    (hfuel : remaining graph search ≤ fuel) : (run graph fuel search).stack = [] := by
  induction fuel generalizing search with
  | zero =>
      cases hstack : search.stack with
      | nil => exact hstack
      | cons frame below =>
          rw [remaining, hstack, List.map_cons, List.sum_cons, movesLeft] at hfuel
          omega
  | succ fuel ih =>
      rw [run.eq_def]
      simp only
      split
      · rename_i hstack
        exact List.isEmpty_iff.mp hstack
      · rename_i hstack
        have hne : search.stack ≠ [] := fun hnil => hstack (by rw [hnil]; rfl)
        have hmove := step_move graph search hne
        have hless := hmove.remaining_succ htidy h
        exact ih (h.move htidy hmove) (by omega)

/-- A search may start at any node that was not visited. -/
theorem Consistent.enter_start (h : Consistent graph search) (hstack : search.stack = [])
    {start : String} (hstart : start ∈ graph.nodes) (hfresh : start ∉ search.visited) :
    Consistent graph (search.enter start) := by
  have hpath : search.path = [] := by rw [h.path_eq, hstack, List.map_nil]
  apply h.enter hstart hfresh
  rw [hpath]
  intro top htop
  cases htop

/-- A search from a node that was not visited ends with an empty stack, however long it may go on. -/
theorem run_enter_stack (htidy : graph.Tidy) (h : Consistent graph search)
    (hstack : search.stack = []) {start : String} (hstart : start ∈ graph.nodes)
    (hfresh : start ∉ search.visited) {fuel : Nat} (hfuel : graph.size ≤ fuel) :
    (run graph fuel (search.enter start)).stack = [] := by
  apply run_stack htidy (h.enter_start hstack hstart hfresh)
  rw [remaining_enter search htidy.nodes_nodup hstart hfresh, remaining, hstack]
  refine (unvisitedWeight_le graph search.visited).trans ?_
  rwa [unvisitedWeight_nil htidy.nodes_nodup]

end CycleSearch

end ApiScaffold
