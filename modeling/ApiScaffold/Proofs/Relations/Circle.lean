import Mathlib
import ApiScaffold.Proofs.Relations.Graph
import ApiScaffold.Relations.Cycles

/-! Circles of a graph: walks from a node back to it that pass no node twice. The members of a circle
reach one another, and going back from the deepest node of a path to a node on it closes a circle. -/

namespace ApiScaffold

namespace Graph

variable {graph : Graph}

/-- A walk from a node over at least one other node back to it. No node is passed twice. -/
def IsCircle (graph : Graph) (cycle : List String) : Prop :=
  ∃ first inner, cycle = first :: (inner ++ [first]) ∧ inner ≠ [] ∧ (first :: inner).Nodup ∧
    cycle.IsChain graph.Edge

/-- Two nodes can be reached from each other. -/
def Intertwined (graph : Graph) (a b : String) : Prop :=
  Relation.ReflTransGen graph.Edge a b ∧ Relation.ReflTransGen graph.Edge b a

theorem Intertwined.trans {a b c : String} (hab : graph.Intertwined a b)
    (hbc : graph.Intertwined b c) : graph.Intertwined a c :=
  ⟨hab.1.trans hbc.1, hbc.2.trans hab.2⟩

/-- The first node of a circle reaches every member and is reached from it. -/
theorem IsCircle.first_transGen {cycle : List String} (h : graph.IsCircle cycle) :
    ∃ first, ∀ member ∈ cycle,
      Relation.TransGen graph.Edge first member ∧ Relation.TransGen graph.Edge member first := by
  obtain ⟨first, inner, rfl, -, -, hchain⟩ := h
  have hpairs := List.isChain_iff_pairwise.mp
    (hchain.imp fun _ _ hedge => Relation.TransGen.single hedge)
  rw [List.pairwise_cons, List.pairwise_append] at hpairs
  obtain ⟨hfirst, -, -, hlast⟩ := hpairs
  have hself : Relation.TransGen graph.Edge first first := hfirst first (by simp)
  refine ⟨first, fun member hmember => ?_⟩
  rcases List.mem_cons.mp hmember with rfl | hrest
  · exact ⟨hself, hself⟩
  · refine ⟨hfirst member hrest, ?_⟩
    rcases List.mem_append.mp hrest with hinner | hend
    · exact hlast member hinner first (List.mem_singleton_self first)
    · rw [List.mem_singleton.mp hend]
      exact hself

theorem IsCircle.intertwined {cycle : List String} (h : graph.IsCircle cycle) {a b : String}
    (ha : a ∈ cycle) (hb : b ∈ cycle) : graph.Intertwined a b := by
  obtain ⟨first, hfirst⟩ := h.first_transGen
  exact ⟨((hfirst a ha).2.trans (hfirst b hb).1).to_reflTransGen,
    ((hfirst b hb).2.trans (hfirst a ha).1).to_reflTransGen⟩

theorem IsCircle.exists_transGen_self {cycle : List String} (h : graph.IsCircle cycle) :
    ∃ node, Relation.TransGen graph.Edge node node := by
  obtain ⟨first, hfirst⟩ := h.first_transGen
  obtain ⟨node, inner, rfl, -, -, -⟩ := h
  have hnode := hfirst node List.mem_cons_self
  exact ⟨node, hnode.2.trans hnode.1⟩

end Graph

namespace CycleSearch

variable {graph : Graph}

theorem closedCycle_append {before after : List String} {node : String} (h : node ∉ before) :
    closedCycle (before ++ node :: after) node = node :: (before.reverse ++ [node]) := by
  have hbefore : ∀ other ∈ before, (other != node) = true := by
    intro other hother
    rw [bne_iff_ne]
    rintro rfl
    exact h hother
  rw [closedCycle, List.takeWhile_append_of_pos hbefore, List.takeWhile_cons_of_neg (by simp),
    List.append_nil, List.cons_append]

/-- An edge from the deepest node of a path back to another node on it closes a circle that holds
both ends of the edge. -/
theorem closedCycle_isCircle {top node : String} {below : List String}
    (hnodup : (top :: below).Nodup)
    (hchain : (top :: below).IsChain fun child parent => graph.Edge parent child)
    (hedge : graph.Edge top node) (hne : top ≠ node) (hmem : node ∈ top :: below) :
    graph.IsCircle (closedCycle (top :: below) node) ∧
      top ∈ closedCycle (top :: below) node ∧ node ∈ closedCycle (top :: below) node := by
  obtain ⟨before, after, hsplit, hfresh⟩ := List.eq_append_cons_of_mem hmem
  cases before with
  | nil =>
      rw [List.nil_append, List.cons.injEq] at hsplit
      exact absurd hsplit.1 hne
  | cons first inner =>
      rw [List.cons_append, List.cons.injEq] at hsplit
      obtain ⟨rfl, rfl⟩ := hsplit
      rw [← List.cons_append] at hnodup hchain ⊢
      rw [closedCycle_append hfresh]
      have hback : (node :: (top :: inner).reverse).IsChain graph.Edge := by
        have hprefix := (List.isChain_split.mp hchain).1
        rw [← List.isChain_reverse, List.reverse_append, List.reverse_singleton] at hprefix
        exact hprefix
      refine ⟨⟨node, (top :: inner).reverse, rfl, by simp, ?_, ?_⟩, by simp, by simp⟩
      · rw [List.nodup_cons, List.mem_reverse, List.nodup_reverse]
        exact ⟨hfresh, hnodup.of_append_left⟩
      · rw [← List.cons_append, List.isChain_append]
        refine ⟨hback, List.isChain_singleton node, ?_⟩
        intro last hlast target htarget
        rw [List.head?_cons, Option.mem_some_iff] at htarget
        rw [List.getLast?_cons, List.getLast?_reverse, List.head?_cons, Option.getD_some,
          Option.mem_some_iff] at hlast
        rw [← hlast, ← htarget]
        exact hedge

theorem sameMembers_iff {xs ys : List String} :
    sameMembers xs ys = true ↔ ∀ name, name ∈ xs ↔ name ∈ ys := by
  simp only [sameMembers, Bool.and_eq_true, List.all_eq_true, List.contains_iff_mem]
  exact ⟨fun h name => ⟨h.1 name, h.2 name⟩, fun h => ⟨fun name => (h name).1, fun name => (h name).2⟩⟩

end CycleSearch

end ApiScaffold
