import Mathlib
import ApiScaffold.Bundle
import ApiScaffold.Proofs.Naming.Words
import ApiScaffold.Proofs.Text.Lines

/-! The routes of endpoints. A resource has a path for all of its records and one for a single record; the
second one has a brace, so it is never a path for all records. The routes of all resources differ exactly
if their first paths do. -/

namespace ApiScaffold.Endpoint

variable {config : ApiConfig}

/-! ### Characters of paths -/

theorem mem_collectionPath {resource : String} {c : Char}
    (h : c ∈ (Naming.collectionPath resource).toList) :
    Naming.isNameChar c = true ∨ c = '-' ∨ c = '/' := by
  rw [Naming.collectionPath, String.toList_append, List.mem_append] at h
  rcases h with hslash | hname
  · exact Or.inr (Or.inr (List.mem_singleton.mp hslash))
  · exact (Naming.mem_kebabCase hname).imp id Or.inl

theorem brace_not_mem_collectionPath (resource : String) :
    '\x7b' ∉ (Naming.collectionPath resource).toList := by
  intro h
  rcases mem_collectionPath h with hname | hmark | hmark
  · exact absurd hname (by decide)
  · exact absurd hmark (by decide)
  · exact absurd hmark (by decide)

theorem itemPath_inj {resource other : String} :
    itemPath resource = itemPath other ↔ Naming.collectionPath resource = Naming.collectionPath other := by
  simp only [itemPath, String.append_left_inj]

theorem collectionPath_ne_itemPath (resource other : String) :
    Naming.collectionPath resource ≠ itemPath other := by
  intro heq
  have hbrace : '\x7b' ∈ (itemPath other).toList := by
    simp only [itemPath, String.toList_append, List.mem_append]
    exact Or.inl (Or.inl (Or.inr (List.mem_cons_of_mem _ List.mem_cons_self)))
  exact brace_not_mem_collectionPath resource (heq ▸ hbrace)

theorem pathOf_eq (resource : String) (operation : Operation) :
    pathOf resource operation = Naming.collectionPath resource ∨
      pathOf resource operation = itemPath resource := by
  cases operation with
  | create | list => exact Or.inl rfl
  | get | update | delete => exact Or.inr rfl

theorem pathOf_eq_collectionPath_iff (resource : String) {operation : Operation} :
    pathOf resource operation = Naming.collectionPath resource ↔
      operation = .create ∨ operation = .list := by
  cases operation with
  | create | list => exact iff_of_true rfl (by decide)
  | get | update | delete =>
      exact iff_of_false (collectionPath_ne_itemPath resource resource).symm (by decide)

/-- Any path of a resource tells its path for all records. -/
theorem collectionPath_eq_of_pathOf {resource other : String} {operation operation' : Operation}
    (h : pathOf resource operation = pathOf other operation') :
    Naming.collectionPath resource = Naming.collectionPath other := by
  rcases pathOf_eq resource operation with hpath | hpath <;>
    rcases pathOf_eq other operation' with hpath' | hpath' <;> rw [hpath, hpath'] at h
  · exact h
  · exact absurd h (collectionPath_ne_itemPath resource other)
  · exact absurd h.symm (collectionPath_ne_itemPath other resource)
  · exact itemPath_inj.mp h

/-- Paths can be put between quotes as they are. -/
theorem isOrdinary_of_mem_pathOf {resource : String} {operation : Operation} {c : Char}
    (h : c ∈ (pathOf resource operation).toList) : Text.isOrdinary c = true := by
  have hcollection : ∀ c ∈ (Naming.collectionPath resource).toList, Text.isOrdinary c = true := by
    intro c hc
    rcases mem_collectionPath hc with hname | rfl | rfl
    · exact Naming.isOrdinary_of_isNameChar hname
    · decide
    · decide
  have hending : ("/\x7b" ++ primaryKey ++ "\x7d").toList.all Text.isOrdinary = true := by decide
  have hitem : ∀ c ∈ (itemPath resource).toList, Text.isOrdinary c = true := by
    intro c hc
    rw [itemPath, String.append_assoc, String.append_assoc, String.toList_append, List.mem_append,
      ← String.append_assoc] at hc
    exact hc.elim (hcollection c) (List.all_eq_true.mp hending c)
  cases operation with
  | create | list => exact hcollection c h
  | get | update | delete => exact hitem c h

theorem isPlain_handlerOf (resource : String) (operation : Operation) :
    Naming.IsPlain (handlerOf resource operation) := by
  have hmodule := Naming.isPlain_moduleName resource
  have hoperation : Naming.IsPlain operation.name := by cases operation <;> decide
  have hmark : Naming.IsPlain "_" := by decide
  rw [handlerOf]
  refine (hoperation.append hmark).append ?_
  split
  · exact hmodule.plural
  · exact hmodule

/-! ### Routes -/

/-- The route of an operation: its method and its path. -/
def route (resource : ResourceSpec) (operation : Operation) : String × String :=
  ((methodOf operation).name, pathOf resource.name operation)

/-- The routes of a configuration, in the order of its endpoints. -/
def routes (config : ApiConfig) : List (String × String) :=
  config.resources.flatMap fun resource => Operation.all.map (route resource)

/-- The paths for all records of different resources are different. -/
def RoutesApart (config : ApiConfig) : Prop :=
  (config.resources.map fun resource => Naming.collectionPath resource.name).Nodup

instance (config : ApiConfig) : Decidable (RoutesApart config) :=
  inferInstanceAs (Decidable (List.Nodup _))

theorem methodName_injective : Function.Injective Method.name := by
  intro left right h
  cases left <;> cases right <;> first | rfl | exact absurd h (by decide)

/-- No two operations of a resource have both their method and the kind of their path in common. -/
theorem route_injective (resource : ResourceSpec) : Function.Injective (route resource) := by
  intro operation other h
  have hmethod : methodOf operation = methodOf other := methodName_injective (Prod.mk.inj h).1
  have hpath : pathOf resource.name operation = pathOf resource.name other := (Prod.mk.inj h).2
  have hkind : operation = .create ∨ operation = .list ↔ other = .create ∨ other = .list := by
    rw [← pathOf_eq_collectionPath_iff resource.name, ← pathOf_eq_collectionPath_iff resource.name, hpath]
  revert hmethod hkind
  cases operation <;> cases other <;> decide

/-- Two resources share a route exactly if they share the path for all of their records. -/
theorem disjoint_routes {resource other : ResourceSpec} :
    (Operation.all.map (route resource)).Disjoint (Operation.all.map (route other)) ↔
      Naming.collectionPath resource.name ≠ Naming.collectionPath other.name := by
  constructor
  · intro h heq
    have hshared : route resource .list = route other .list := Prod.ext rfl heq
    have hother : route resource .list ∈ Operation.all.map (route other) := by
      rw [hshared]
      exact List.mem_map_of_mem (Operation.mem_all .list)
    exact h (List.mem_map_of_mem (Operation.mem_all .list)) hother
  · intro hne shared hmem hother
    obtain ⟨operation, -, rfl⟩ := List.mem_map.mp hmem
    obtain ⟨operation', -, heq⟩ := List.mem_map.mp hother
    exact hne (collectionPath_eq_of_pathOf (Prod.mk.inj heq).2.symm)

theorem routes_nodup_iff : (routes config).Nodup ↔ RoutesApart config := by
  have hoperations : Operation.all.Nodup := by decide
  exact nodup_flatMap_iff (fun resource => hoperations.map (route_injective resource))
    fun _ _ => disjoint_routes

/-! ### Descriptions -/

/-- The description of an endpoint as it goes to the router. -/
def specOf (resource : ResourceSpec) (operation : Operation) : EndpointSpec :=
  { describe resource operation with imports := importLines (describe resource operation) }

theorem endpointSpecs_artifacts (config : ApiConfig) :
    Bundle.endpointSpecs (artifacts config) =
      config.resources.flatMap fun resource => Operation.all.map (specOf resource) := by
  rw [Bundle.endpointSpecs, artifacts, List.filterMap_flatMap]
  refine List.flatMap_congr fun resource _ => ?_
  rw [List.filterMap_map]
  rfl

theorem exists_specOf_of_mem {spec : EndpointSpec}
    (h : spec ∈ Bundle.endpointSpecs (artifacts config)) :
    ∃ resource ∈ config.resources, ∃ operation, spec = specOf resource operation := by
  rw [endpointSpecs_artifacts] at h
  obtain ⟨resource, hresource, hmem⟩ := List.mem_flatMap.mp h
  obtain ⟨operation, -, rfl⟩ := List.mem_map.mp hmem
  exact ⟨resource, hresource, operation, rfl⟩

theorem map_route_endpointSpecs (config : ApiConfig) :
    (Bundle.endpointSpecs (artifacts config)).map (fun spec => (spec.method.name, spec.path)) =
      routes config := by
  rw [endpointSpecs_artifacts, List.map_flatMap]
  rfl

end ApiScaffold.Endpoint
