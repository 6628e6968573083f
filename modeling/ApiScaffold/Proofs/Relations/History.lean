import Mathlib
import ApiScaffold.Proofs.Relations.Genuine

/-! The search for cycles as a whole, from its first state to its last one. From one test of its loop to the next
it makes one turn: a move of the search under way, or the start of another one from a rested state. What every
turn keeps holds at all tests. The visited nodes are those pushed so far, and every entry of the adjacency that
was looked at was examined once, so in the end every node was pushed once and every entry examined once. -/

namespace ApiScaffold

/-- The edges of a graph as its entries list them. -/
def Graph.edges (graph : Graph) : List (String × String) :=
  graph.entries.flatMap fun entry => entry.2.map (entry.1, ·)

namespace CycleSearch

variable {graph : Graph} {search next last : CycleSearch} {states more : List CycleSearch}

/-! ### The course of the search -/

/-- The states that follow a given one in a run, each of them at a test of the loop. -/
def following (graph : Graph) : Nat → CycleSearch → List CycleSearch
  | 0, _ => []
  | fuel + 1, search =>
    if search.stack.isEmpty then [] else step graph search :: following graph fuel (step graph search)

/-- The states at all tests of the loop in searches from some nodes, one after the other. -/
def historyFrom (graph : Graph) (search : CycleSearch) : List String → List CycleSearch
  | [] => []
  | start :: rest =>
    if search.visited.contains start then historyFrom graph search rest
    else
      search.enter start :: following graph graph.size (search.enter start) ++
        historyFrom graph (run graph graph.size (search.enter start)) rest

/-- The states at all tests of the loop in the search from every node. -/
def history (graph : Graph) : List CycleSearch := historyFrom graph {} graph.nodes

/-- The nodes that are pushed from one state to the next: those of the frames by which the stack grows. -/
def pushed (search next : CycleSearch) : List String :=
  (next.stack.take (next.stack.length - search.stack.length)).map Frame.node

/-- All nodes that are pushed from a state through others. -/
def pushes (search : CycleSearch) : List CycleSearch → List String
  | [] => []
  | next :: rest => pushed search next ++ pushes next rest

/-- The entry of the adjacency that a step from a state reads, if the deepest node has one more. -/
def examined (graph : Graph) (search : CycleSearch) : List (String × String) :=
  match search.stack with
  | [] => []
  | frame :: _ => ((graph.neighbours? frame.node).bind (·[frame.next]?)).toList.map (frame.node, ·)

/-- What leads from one test of the loop to the next. -/
inductive Turn (graph : Graph) (search : CycleSearch) : CycleSearch → Prop where
  | move {next : CycleSearch} (hmove : Move graph search next) : Turn graph search next
  | start {node : String} (hstack : search.stack = []) (hnode : node ∈ graph.nodes)
      (hfresh : node ∉ search.visited) : Turn graph search (search.enter node)

/-- Turns lead from a state through others to the last of them. -/
inductive Course (graph : Graph) : CycleSearch → List CycleSearch → CycleSearch → Prop where
  | done {search : CycleSearch} : Course graph search [] search
  | turn {search next last : CycleSearch} {rest : List CycleSearch} (hturn : Turn graph search next)
      (hrest : Course graph next rest last) : Course graph search (next :: rest) last

theorem Course.append (h : Course graph search states next) (hmore : Course graph next more last) :
    Course graph search (states ++ more) last := by
  induction h with
  | done => exact hmore
  | turn hturn _ ih => exact .turn hturn (ih hmore)

theorem Course.getLastD_eq (h : Course graph search states last) : states.getLastD search = last := by
  induction h with
  | done => rfl
  | turn _ _ ih => rw [List.getLastD_cons, ih]

/-- What every turn keeps holds of all states that are passed. -/
theorem Course.induction {motive : CycleSearch → Prop}
    (hkept : ∀ search next, motive search → Turn graph search next → motive next)
    (h : Course graph search states last) (hsearch : motive search) : ∀ state ∈ states, motive state := by
  induction h with
  | done => exact List.forall_mem_nil _
  | turn hturn _ ih =>
      have hnext := hkept _ _ hsearch hturn
      exact List.forall_mem_cons.mpr ⟨hnext, ih hnext⟩

theorem course_following (graph : Graph) (fuel : Nat) (search : CycleSearch) :
    Course graph search (following graph fuel search) (run graph fuel search) := by
  induction fuel generalizing search with
  | zero => exact .done
  | succ fuel ih =>
      rw [following, run]
      split
      · exact .done
      · rename_i hstack
        exact .turn (.move (step_move graph search (by simpa using hstack))) (ih _)

theorem course_historyFrom (htidy : graph.Tidy) (starts : List String)
    (hstarts : ∀ start ∈ starts, start ∈ graph.nodes) (h : Rested graph search) :
    Course graph search (historyFrom graph search starts) (starts.foldl (searchFrom graph) search) := by
  induction starts generalizing search with
  | nil => exact .done
  | cons start rest ih =>
      obtain ⟨hstart, hrest⟩ := List.forall_mem_cons.mp hstarts
      have hnext := h.searchFrom htidy hstart
      rw [historyFrom, List.foldl_cons]
      rw [searchFrom] at hnext ⊢
      split at hnext
      · rename_i hvisited
        rw [if_pos hvisited, if_pos hvisited]
        exact ih hrest hnext
      · rename_i hvisited
        have hfresh : start ∉ search.visited := fun hmem => hvisited (List.contains_iff_mem.mpr hmem)
        rw [if_neg hvisited, if_neg hvisited]
        exact .turn (.start h.stack_nil hstart hfresh) ((course_following graph _ _).append (ih hrest hnext))

theorem course_history (htidy : graph.Tidy) :
    Course graph {} (history graph) (graph.nodes.foldl (searchFrom graph) {}) :=
  course_historyFrom htidy graph.nodes (fun _ h => h) (Rested.empty graph)

theorem Consistent.turn (htidy : graph.Tidy) (h : Consistent graph search) (hturn : Turn graph search next) :
    Consistent graph next := by
  cases hturn with
  | move hmove => exact h.move htidy hmove
  | start hstack hnode hfresh => exact h.enter_start hstack hnode hfresh

/-! ### Nodes that are pushed -/

theorem pushed_enter (search : CycleSearch) (node : String) : pushed search (search.enter node) = [node] := by
  have hgrowth : (search.enter node).stack.length - search.stack.length = 1 := Nat.add_sub_cancel_left _ _
  rw [pushed, hgrowth]
  rfl

theorem pushed_of_length_le (h : next.stack.length ≤ search.stack.length) : pushed search next = [] := by
  rw [pushed, Nat.sub_eq_zero_of_le h, List.take_zero, List.map_nil]

/-- The nodes visited in a turn are those pushed in it. -/
theorem Turn.visited_eq (hturn : Turn graph search next) :
    next.visited = search.visited ++ pushed search next := by
  cases hturn with
  | start hstack hnode hfresh => rw [pushed_enter]; rfl
  | move hmove =>
      cases hmove with
      | leave hstack hlast =>
          rw [pushed_of_length_le (by simp [leave]), List.append_nil]
          rfl
      | close hstack hnext hpath =>
          rw [pushed_of_length_le (by simp [advance, hstack]), List.append_nil, record_visited]
          rfl
      | skip hstack hnext hpath hvisited =>
          rw [pushed_of_length_le (by simp [advance, hstack]), List.append_nil]
          rfl
      | enter hstack hnext hpath hfresh =>
          rename_i frame below node
          have hlength : (search.advance frame below).stack.length = search.stack.length := by
            simp [advance, hstack]
          have hpushed := pushed_enter (search.advance frame below) node
          rw [pushed, hlength] at hpushed
          rw [pushed, hpushed]
          rfl

theorem Course.visited_eq (h : Course graph search states last) :
    last.visited = search.visited ++ pushes search states := by
  induction h with
  | done => exact (List.append_nil _).symm
  | turn hturn _ ih => rw [ih, hturn.visited_eq, pushes, List.append_assoc]

/-! ### Entries that are examined -/

/-- A target was looked at from its source: the source was visited, and either it was left or it has passed the
target. -/
def Looked (graph : Graph) (search : CycleSearch) (source target : String) : Prop :=
  source ∈ search.visited ∧ graph.Edge source target ∧
    ∀ frame ∈ search.stack, frame.node = source → target ∈ seen graph frame

section Looked

variable {source target node : String} {frame : Frame} {below : List Frame}

theorem examined_of_stack_nil (h : search.stack = []) : examined graph search = [] := by
  rw [examined, h]

theorem examined_eq (hstack : search.stack = frame :: below) :
    examined graph search = (graph.neighbours frame.node)[frame.next]?.toList.map (frame.node, ·) := by
  rw [examined, hstack]
  simp only [neighbours?_bind_getElem?]

theorem mem_examined_iff (hstack : search.stack = frame :: below)
    (hnext : (graph.neighbours frame.node)[frame.next]? = some node) :
    (source, target) ∈ examined graph search ↔ source = frame.node ∧ target = node := by
  rw [examined_eq hstack, hnext, Option.toList_some, List.map_singleton, List.mem_singleton, Prod.mk.injEq]

theorem nodup_examined (graph : Graph) (search : CycleSearch) : (examined graph search).Nodup := by
  cases hstack : search.stack with
  | nil => rw [examined_of_stack_nil hstack]; exact List.nodup_nil
  | cons frame below =>
      rw [examined_eq hstack]
      cases (graph.neighbours frame.node)[frame.next]? with
      | none => exact List.nodup_nil
      | some node => exact List.nodup_singleton _

/-- The next neighbour was not looked at before. -/
theorem not_mem_seen (htidy : graph.Tidy) (hnext : (graph.neighbours frame.node)[frame.next]? = some node) :
    node ∉ seen graph frame := by
  have hnodup := (htidy.neighbours_nodup frame.node).sublist (List.take_sublist (frame.next + 1) _)
  rw [List.take_add_one, hnext, Option.toList_some, List.nodup_append] at hnodup
  exact fun hmem => hnodup.2.2 node hmem node (List.mem_singleton_self node) rfl

theorem looked_leave (hstack : search.stack = frame :: below)
    (hlast : (graph.neighbours frame.node)[frame.next]? = none) :
    Looked graph search.leave source target ↔ Looked graph search source target := by
  have htail : search.leave.stack = below := by rw [leave, hstack, List.tail_cons]
  have hall : seen graph frame = graph.neighbours frame.node :=
    List.take_of_length_le (List.getElem?_eq_none_iff.mp hlast)
  constructor
  · rintro ⟨hvisited, hedge, hframes⟩
    refine ⟨hvisited, hedge, fun other hother heq => ?_⟩
    rw [hstack] at hother
    rcases List.mem_cons.mp hother with rfl | hbelow
    · rw [hall, heq]
      exact hedge
    · exact hframes other (htail ▸ hbelow) heq
  · rintro ⟨hvisited, hedge, hframes⟩
    exact ⟨hvisited, hedge, fun other hother => hframes other (List.mem_of_mem_tail hother)⟩

theorem looked_advance (hconsistent : Consistent graph search) (hstack : search.stack = frame :: below)
    (hnext : (graph.neighbours frame.node)[frame.next]? = some node) :
    Looked graph (search.advance frame below) source target ↔
      Looked graph search source target ∨ source = frame.node ∧ target = node := by
  have hpath := hconsistent.path_cons hstack
  have hnodup := hconsistent.path_nodup
  rw [hpath, List.nodup_cons] at hnodup
  constructor
  · rintro ⟨hvisited, hedge, hframes⟩
    have hbelow : ∀ other ∈ below, other.node = source → target ∈ seen graph other := fun other hother =>
      hframes other (List.mem_cons_of_mem _ hother)
    have hback : (frame.node = source → target ∈ seen graph frame) → Looked graph search source target := by
      intro htop
      refine ⟨hvisited, hedge, ?_⟩
      rw [hstack, List.forall_mem_cons]
      exact ⟨htop, hbelow⟩
    -- Only the frame on top has moved on, so a target of another source was passed before.
    by_cases hsource : source = frame.node
    · have htop := hframes ⟨frame.node, frame.next + 1⟩ List.mem_cons_self hsource.symm
      rcases (mem_seen_succ hnext).mp htop with hseen | heq
      · exact Or.inl (hback fun _ => hseen)
      · exact Or.inr ⟨hsource, heq⟩
    · exact Or.inl (hback fun heq => absurd heq.symm hsource)
  · rintro (⟨hvisited, hedge, hframes⟩ | ⟨rfl, rfl⟩)
    · rw [hstack, List.forall_mem_cons] at hframes
      refine ⟨hvisited, hedge, List.forall_mem_cons.mpr ⟨fun heq => ?_, hframes.2⟩⟩
      exact (mem_seen_succ hnext).mpr (Or.inl (hframes.1 heq))
    · refine ⟨hconsistent.path_visited _ (hpath ▸ List.mem_cons_self), List.mem_of_getElem? hnext,
        List.forall_mem_cons.mpr ⟨fun _ => (mem_seen_succ hnext).mpr (Or.inr rfl), ?_⟩⟩
      exact fun other hother heq => absurd (heq ▸ List.mem_map_of_mem hother) hnodup.1

theorem looked_enter (hfresh : node ∉ search.visited) :
    Looked graph (search.enter node) source target ↔ Looked graph search source target := by
  constructor
  · rintro ⟨hvisited, hedge, hframes⟩
    obtain ⟨htop, hbelow⟩ := List.forall_mem_cons.mp hframes
    -- The new frame has passed nothing yet.
    have hne : source ≠ node := by
      intro heq
      have hseen := htop heq.symm
      rw [seen, List.take_zero] at hseen
      exact absurd hseen List.not_mem_nil
    exact ⟨(List.mem_append.mp hvisited).resolve_right fun hnew => hne (List.mem_singleton.mp hnew), hedge,
      hbelow⟩
  · rintro ⟨hvisited, hedge, hframes⟩
    have hne : node ≠ source := fun heq => hfresh (heq ▸ hvisited)
    exact ⟨List.mem_append_left _ hvisited, hedge,
      List.forall_mem_cons.mpr ⟨fun heq => absurd heq hne, hframes⟩⟩

/-- A turn looks at what it examines, and at nothing else. -/
theorem Turn.looked_iff (hconsistent : Consistent graph search) (hturn : Turn graph search next) :
    Looked graph next source target ↔
      Looked graph search source target ∨ (source, target) ∈ examined graph search := by
  cases hturn with
  | start hstack hnode hfresh =>
      rw [looked_enter hfresh, examined_of_stack_nil hstack, or_iff_left List.not_mem_nil]
  | move hmove =>
      cases hmove with
      | leave hstack hlast =>
          rw [looked_leave hstack hlast, examined_eq hstack, hlast, Option.toList_none, List.map_nil,
            or_iff_left List.not_mem_nil]
      | close hstack hnext hpath =>
          rw [Looked, record_visited, record_stack, ← Looked, looked_advance hconsistent hstack hnext,
            mem_examined_iff hstack hnext]
      | skip hstack hnext hpath hvisited =>
          rw [looked_advance hconsistent hstack hnext, mem_examined_iff hstack hnext]
      | enter hstack hnext hpath hfresh =>
          rename_i frame below node
          have hadvanced : node ∉ (search.advance frame below).visited := hfresh
          rw [looked_enter hadvanced, looked_advance hconsistent hstack hnext, mem_examined_iff hstack hnext]

/-- What is examined was not looked at before. -/
theorem not_looked_of_mem_examined (htidy : graph.Tidy) (h : (source, target) ∈ examined graph search) :
    ¬Looked graph search source target := by
  cases hstack : search.stack with
  | nil =>
      rw [examined_of_stack_nil hstack] at h
      exact absurd h List.not_mem_nil
  | cons frame below =>
      cases hnext : (graph.neighbours frame.node)[frame.next]? with
      | none =>
          rw [examined_eq hstack, hnext] at h
          exact absurd h List.not_mem_nil
      | some node =>
          obtain ⟨rfl, rfl⟩ := (mem_examined_iff hstack hnext).mp h
          rintro ⟨-, -, hframes⟩
          exact not_mem_seen htidy hnext (hframes frame (hstack ▸ List.mem_cons_self) rfl)

end Looked

/-- A log of the entries that were looked at, each of them once. -/
structure Logged (graph : Graph) (log : List (String × String)) (search : CycleSearch) : Prop where
  nodup : log.Nodup
  mem_iff : ∀ source target, (source, target) ∈ log ↔ Looked graph search source target

theorem Logged.empty (graph : Graph) : Logged graph [] {} where
  nodup := List.nodup_nil
  mem_iff _ _ := ⟨fun h => absurd h List.not_mem_nil, fun h => absurd h.1 List.not_mem_nil⟩

/-- In a turn the log grows by what is examined. -/
theorem Logged.turn (htidy : graph.Tidy) (hconsistent : Consistent graph search)
    {log : List (String × String)} (h : Logged graph log search) (hturn : Turn graph search next) :
    Logged graph (log ++ examined graph search) next where
  nodup := by
    refine List.nodup_append.mpr ⟨h.nodup, nodup_examined graph search, ?_⟩
    rintro ⟨source, target⟩ hold _ hnew rfl
    exact not_looked_of_mem_examined htidy hnew ((h.mem_iff source target).mp hold)
  mem_iff source target := by
    rw [List.mem_append, h.mem_iff, hturn.looked_iff hconsistent]

theorem Logged.course (htidy : graph.Tidy) (h : Course graph search states last)
    (hconsistent : Consistent graph search) {log : List (String × String)} (hlog : Logged graph log search)
    (hlast : last.stack = []) :
    Logged graph (log ++ (search :: states).flatMap (examined graph)) last := by
  induction h generalizing log with
  | done =>
      rw [List.flatMap_singleton, examined_of_stack_nil hlast, List.append_nil]
      exact hlog
  | turn hturn _ ih =>
      rw [List.flatMap_cons, ← List.append_assoc]
      exact ih (hconsistent.turn htidy hturn) (hlog.turn htidy hconsistent hturn) hlast

/-! ### The whole search -/

/-- A node that is on the stack is one of the graph, and its position is not behind its last neighbour. -/
theorem Consistent.exists_neighbours (htidy : graph.Tidy) (h : Consistent graph search) {frame : Frame}
    (hframe : frame ∈ search.stack) :
    ∃ neighbours, graph.neighbours? frame.node = some neighbours ∧ frame.next ≤ neighbours.length := by
  have hpath : frame.node ∈ search.path := h.path_eq ▸ List.mem_map_of_mem hframe
  obtain ⟨⟨node, neighbours⟩, hentry, heq⟩ := List.mem_map.mp (h.visited_nodes _ (h.path_visited _ hpath))
  have hlookup : graph.neighbours? frame.node = some neighbours :=
    lookup_of_mem htidy.nodes_nodup (heq ▸ hentry)
  have hle := h.next_le frame hframe
  rw [Graph.neighbours, hlookup, Option.getD_some] at hle
  exact ⟨neighbours, hlookup, hle⟩

theorem consistent_of_mem_history (htidy : graph.Tidy) : ∀ search ∈ history graph, Consistent graph search :=
  (course_history htidy).induction (fun _ _ h hturn => h.turn htidy hturn) (Consistent.empty graph)

/-- Every node is pushed once. -/
theorem pushes_perm (htidy : graph.Tidy) : (pushes {} (history graph)).Perm graph.nodes := by
  obtain ⟨⟨hconsistent, -, -⟩, -, hall⟩ :=
    foldl_searchFrom htidy graph.nodes (fun _ h => h) (Rested.empty graph)
  have hvisited := (course_history htidy).visited_eq
  rw [show ({} : CycleSearch).visited = [] from rfl, List.nil_append] at hvisited
  rw [← hvisited, List.perm_ext_iff_of_nodup hconsistent.visited_nodup htidy.nodes_nodup]
  exact fun node => ⟨hconsistent.visited_nodes node, hall node⟩

end CycleSearch

namespace Graph

variable {graph : Graph}

theorem mem_edges (htidy : graph.Tidy) {source target : String} :
    (source, target) ∈ graph.edges ↔ graph.Edge source target := by
  simp only [edges, List.mem_flatMap, List.mem_map, Prod.mk.injEq]
  constructor
  · rintro ⟨entry, hentry, _, htarget, rfl, rfl⟩
    rw [Edge, neighbours_of_mem htidy.nodes_nodup hentry]
    exact htarget
  · intro hedge
    obtain ⟨entry, hentry, rfl⟩ := List.mem_map.mp (mem_nodes_of_edge hedge)
    rw [Edge, neighbours_of_mem htidy.nodes_nodup hentry] at hedge
    exact ⟨entry, hentry, target, hedge, rfl, rfl⟩

theorem nodup_edges (htidy : graph.Tidy) : graph.edges.Nodup := by
  refine List.nodup_flatMap.mpr ⟨fun entry hentry => ?_, ?_⟩
  · rw [← neighbours_of_mem htidy.nodes_nodup hentry]
    exact (htidy.neighbours_nodup entry.1).map fun _ _ heq => (Prod.mk.inj heq).2
  · refine (List.pairwise_map.mp htidy.nodes_nodup).imp fun hne => ?_
    rintro ⟨source, target⟩ hfirst hsecond
    obtain ⟨_, -, hfirst⟩ := List.mem_map.mp hfirst
    obtain ⟨_, -, hsecond⟩ := List.mem_map.mp hsecond
    exact hne ((Prod.mk.inj hfirst).1.trans (Prod.mk.inj hsecond).1.symm)

end Graph

namespace CycleSearch

/-- Every entry of the adjacency is examined once. -/
theorem examined_perm {graph : Graph} (htidy : graph.Tidy) :
    ((history graph).flatMap (examined graph)).Perm graph.edges := by
  obtain ⟨⟨hconsistent, hstack, -⟩, -, hall⟩ :=
    foldl_searchFrom htidy graph.nodes (fun _ h => h) (Rested.empty graph)
  have hlog := (Logged.empty graph).course htidy (course_history htidy) (Consistent.empty graph) hstack
  rw [List.nil_append, List.flatMap_cons, examined_of_stack_nil rfl, List.nil_append] at hlog
  rw [List.perm_ext_iff_of_nodup hlog.nodup (Graph.nodup_edges htidy)]
  rintro ⟨source, target⟩
  rw [hlog.mem_iff, Graph.mem_edges htidy, Looked, hstack]
  constructor
  · exact fun h => h.2.1
  · exact fun hedge => ⟨hall source (Graph.mem_nodes_of_edge hedge), hedge, List.forall_mem_nil _⟩

/-- Started at any node that the searches before it have not visited, a run empties its stack. -/
theorem run_stack_of_fresh {graph : Graph} (htidy : graph.Tidy) {before after : List String} {start : String}
    (hnodes : graph.nodes = before ++ start :: after)
    (hfresh : start ∉ (before.foldl (searchFrom graph) {}).visited) {fuel : Nat} (hfuel : graph.size ≤ fuel) :
    (run graph fuel ((before.foldl (searchFrom graph) {}).enter start)).stack = [] := by
  have hmem : ∀ node ∈ before, node ∈ graph.nodes := fun node hnode =>
    hnodes ▸ List.mem_append_left _ hnode
  have hstart : start ∈ graph.nodes := hnodes ▸ List.mem_append_right _ List.mem_cons_self
  obtain ⟨⟨hconsistent, hstack, -⟩, -, -⟩ := foldl_searchFrom htidy before hmem (Rested.empty graph)
  exact run_enter_stack htidy hconsistent hstack hstart hfresh hfuel

-- Two nodes with edges both ways: the second one is entered, closes the cycle, and is left before the first.
example : (history ⟨[("A", ["B"]), ("B", ["A"])]⟩).map CycleSearch.path =
    [["A"], ["B", "A"], ["B", "A"], ["A"], []] := by
  decide +kernel

/-- **The search for circles of relations ends.** Every resource has an entry in the adjacency. A run empties its
stack from every start. At each test of the loop the path is made of the nodes of the stack and has no repeats,
and what the stack refers to is there. Over the whole search every name is pushed once and every entry of the
adjacency examined once, and its last state has the cycles that are reported. -/
theorem relation_search_ends (config : ApiConfig) :
    let graph := relationGraph config
    (∀ name ∈ config.resourceNames, graph.neighbours? name = some (relatedResources config name)) ∧
      (∀ before start after, graph.nodes = before ++ start :: after →
        start ∉ (before.foldl (searchFrom graph) {}).visited → ∀ fuel, graph.size ≤ fuel →
          (run graph fuel ((before.foldl (searchFrom graph) {}).enter start)).stack = []) ∧
      (∀ search ∈ history graph, search.path = search.stack.map Frame.node ∧ search.path.Nodup ∧
        ∀ frame ∈ search.stack, ∃ neighbours, graph.neighbours? frame.node = some neighbours ∧
          frame.next ≤ neighbours.length) ∧
      (pushes {} (history graph)).Perm config.resourceNames.eraseDups ∧
      ((history graph).flatMap (examined graph)).Perm graph.edges ∧
      ((history graph).getLastD {}).cycles = graph.cycles := by
  intro graph
  have htidy : graph.Tidy := relationGraph_tidy config
  refine ⟨fun name hname => (relationGraph_neighbours? config name).trans (if_pos hname),
    fun before start after hnodes hfresh fuel => run_stack_of_fresh htidy hnodes hfresh,
    fun search hsearch => ?_, ?_, examined_perm htidy, ?_⟩
  · have hconsistent := consistent_of_mem_history htidy search hsearch
    exact ⟨hconsistent.path_eq, hconsistent.path_nodup, fun _ => hconsistent.exists_neighbours htidy⟩
  · rw [← relationGraph_nodes]
    exact pushes_perm htidy
  · rw [(course_history htidy).getLastD_eq, Graph.cycles]

/-- Authors and posts that relate to each other: two nodes and two entries, so a run takes four moves. -/
theorem relation_search_ends_favourites :
    (relationGraph Check.favourites).neighbours? "Author" = some ["Post"] ∧
      (run (relationGraph Check.favourites) 4 (({} : CycleSearch).enter "Author")).stack = [] ∧
      (pushes {} (history (relationGraph Check.favourites))).Perm ["Author", "Post"] := by
  have hnames : Check.favourites.resourceNames.eraseDups = ["Author", "Post"] := by decide +kernel
  have hrelated : relatedResources Check.favourites "Author" = ["Post"] := by decide +kernel
  have hnodes : (relationGraph Check.favourites).nodes = [] ++ "Author" :: ["Post"] := by decide +kernel
  obtain ⟨hentries, hruns, -, hpushes, -, -⟩ := relation_search_ends Check.favourites
  refine ⟨?_, hruns [] "Author" ["Post"] hnodes List.not_mem_nil 4 (by decide +kernel), hnames ▸ hpushes⟩
  rw [← hrelated]
  exact hentries "Author" (by decide +kernel)

end CycleSearch

end ApiScaffold
