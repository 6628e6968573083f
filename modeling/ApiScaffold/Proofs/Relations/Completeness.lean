import Mathlib
import ApiScaffold.Check.Links
import ApiScaffold.Proofs.Relations.Exhaustive

/-! The check for circles of relations is complete: whatever the shape of the relations and the order
of the resources, two resources that can reach each other are told by a finding whose members can all
reach them and be reached from them. -/

namespace ApiScaffold

/-- A chain of relations leads from each of two names to the other. -/
def ApiConfig.Intertwined (config : ApiConfig) (a b : String) : Prop :=
  Relation.ReflTransGen config.Relates a b ∧ Relation.ReflTransGen config.Relates b a

theorem relationGraph_edge_eq (config : ApiConfig) :
    (relationGraph config).Edge = config.Relates := by
  funext source target
  exact propext relationGraph_edge

theorem intertwined_iff {config : ApiConfig} {a b : String} :
    (relationGraph config).Intertwined a b ↔ config.Intertwined a b := by
  rw [Graph.Intertwined, ApiConfig.Intertwined, relationGraph_edge_eq]

namespace Check

theorem mem_circularRelations {config : ApiConfig} {cycle : List String} :
    Finding.circularRelation cycle ∈ circularRelations config ↔
      cycle ∈ (relationGraph config).cycles := by
  rw [circularRelations, List.mem_map_of_injective]
  intro left right heq
  exact Finding.circularRelation.inj heq

/-- A name from which a chain of relations leads back to it is intertwined with the members of some
circle that is found. -/
theorem exists_circularRelation {config : ApiConfig} {name : String}
    (h : Relation.TransGen config.Relates name name) :
    ∃ cycle, Finding.circularRelation cycle ∈ circularRelations config ∧
      ∀ member ∈ cycle, config.Intertwined member name := by
  rw [← relationGraph_edge_eq] at h
  obtain ⟨cycle, hcycle, hmembers⟩ :=
    CycleSearch.exists_cycle_of_transGen_self (relationGraph_tidy config) h
  exact ⟨cycle, mem_circularRelations.mpr hcycle,
    fun member hmember => intertwined_iff.mp (hmembers member hmember)⟩

/-- What is found is a circle of relations. -/
theorem circularRelations_isCircle {config : ApiConfig} {finding : Finding}
    (h : finding ∈ circularRelations config) :
    ∃ cycle, finding = .circularRelation cycle ∧ (relationGraph config).IsCircle cycle := by
  rw [circularRelations, List.mem_map] at h
  obtain ⟨cycle, hcycle, rfl⟩ := h
  obtain ⟨-, -, -, -, hcircles⟩ := CycleSearch.exists_settled (relationGraph_tidy config)
  exact ⟨cycle, rfl, hcircles cycle hcycle⟩

/-- **No circle of relations is missed.** For two names that can reach each other a circle is found
all of whose members are intertwined with both, and there are findings exactly if some chain of
relations leads back to its start. -/
theorem circularRelations_complete (config : ApiConfig) :
    (∀ a b, a ≠ b → config.Intertwined a b →
      ∃ cycle, Finding.circularRelation cycle ∈ circularRelations config ∧
        (relationGraph config).IsCircle cycle ∧
        ∀ member ∈ cycle, config.Intertwined member a ∧ config.Intertwined member b) ∧
      (circularRelations config ≠ [] ↔ ∃ name, Relation.TransGen config.Relates name name) := by
  constructor
  · intro a b hne hab
    have hout : Relation.TransGen config.Relates a b :=
      (Relation.reflTransGen_iff_eq_or_transGen.mp hab.1).resolve_left hne.symm
    obtain ⟨cycle, hfound, hmembers⟩ := exists_circularRelation (hout.trans_left hab.2)
    obtain ⟨_, heq, hcircle⟩ := circularRelations_isCircle hfound
    obtain rfl := Finding.circularRelation.inj heq
    refine ⟨cycle, hfound, hcircle, fun member hmember => ⟨hmembers member hmember, ?_⟩⟩
    obtain ⟨hto, hfrom⟩ := hmembers member hmember
    exact ⟨hto.trans hab.1, hab.2.trans hfrom⟩
  · constructor
    · intro hne
      obtain ⟨finding, hfinding⟩ := List.exists_mem_of_ne_nil _ hne
      obtain ⟨cycle, -, hcircle⟩ := circularRelations_isCircle hfinding
      rw [← relationGraph_edge_eq]
      exact hcircle.exists_transGen_self
    · rintro ⟨name, hname⟩ hnil
      obtain ⟨cycle, hfound, -⟩ := exists_circularRelation hname
      rw [hnil] at hfound
      exact List.not_mem_nil hfound

-- The circle from "A" over "C" and "B" is not found itself, but one whose members it reaches.
example :
    circularRelations {
      name := "Web"
      resources := [
        { name := "A", fields := [{ name := "b", type := .uuid, relation := some "B.id" },
          { name := "c", type := .uuid, relation := some "C.id" }] },
        { name := "B", fields := [{ name := "a", type := .uuid, relation := some "A.id" }] },
        { name := "C", fields := [{ name := "b", type := .uuid, relation := some "B.id" }] }] } =
      [.circularRelation ["A", "B", "A"]] := by
  decide +kernel

end Check

end ApiScaffold
