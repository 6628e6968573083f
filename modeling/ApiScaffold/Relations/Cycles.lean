import ApiScaffold.Relations.Graph

/-!
Search for cycles in a graph, depth first. The search is a sequence of steps on an explicit state,
and each node is entered once.
-/

namespace ApiScaffold

/-- A node under examination and the position of its next neighbour. -/
structure Frame where
  node : String
  next : Nat
  deriving DecidableEq, Repr

/-- The state of a search. Stack and path have the deepest node first; a cycle begins and ends with
the same node. -/
structure CycleSearch where
  stack : List Frame := []
  path : List String := []
  visited : List String := []
  cycles : List (List String) := []
  deriving DecidableEq, Repr

def sameMembers (xs ys : List String) : Bool := xs.all ys.contains && ys.all xs.contains

namespace CycleSearch

/-- The cycle that is closed by going from the deepest node of a path back to a node on it. -/
def closedCycle (path : List String) (node : String) : List String :=
  node :: (path.takeWhile (· != node)).reverse ++ [node]

/-- Records a cycle unless one with the same members is known. -/
def record (search : CycleSearch) (cycle : List String) : CycleSearch :=
  if search.cycles.any (sameMembers cycle) then search
  else { search with cycles := search.cycles ++ [cycle] }

def enter (search : CycleSearch) (node : String) : CycleSearch :=
  { search with
    stack := ⟨node, 0⟩ :: search.stack
    path := node :: search.path
    visited := search.visited ++ [node] }

/-- Leaves the deepest node. -/
def leave (search : CycleSearch) : CycleSearch :=
  { search with stack := search.stack.tail, path := search.path.tail }

/-- Looks at a neighbour of the deepest node: it closes a cycle, is known, or is entered. -/
def look (search : CycleSearch) (node : String) : CycleSearch :=
  if search.path.contains node then search.record (closedCycle search.path node)
  else if search.visited.contains node then search
  else search.enter node

/-- One step: the deepest node looks at its next neighbour, or is left if it has no more. -/
def step (graph : Graph) (search : CycleSearch) : CycleSearch :=
  match search.stack with
  | [] => search
  | frame :: below =>
    match (graph.neighbours? frame.node).bind (·[frame.next]?) with
    | none => search.leave
    | some node => { search with stack := ⟨frame.node, frame.next + 1⟩ :: below }.look node

/-- Steps until the stack is empty; a graph never takes more steps than it has nodes and edges. -/
def run (graph : Graph) : Nat → CycleSearch → CycleSearch
  | 0, search => search
  | fuel + 1, search => if search.stack.isEmpty then search else run graph fuel (step graph search)

/-- Searches from a node unless it was visited. -/
def searchFrom (graph : Graph) (search : CycleSearch) (start : String) : CycleSearch :=
  if search.visited.contains start then search else run graph graph.size (search.enter start)

end CycleSearch

/-- The cycles that a search from every node finds, no two with the same members. -/
def Graph.cycles (graph : Graph) : List (List String) :=
  (graph.nodes.foldl (CycleSearch.searchFrom graph) {}).cycles

end ApiScaffold
