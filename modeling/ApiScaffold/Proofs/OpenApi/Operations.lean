import Mathlib
import ApiScaffold.Proofs.Check.Names
import ApiScaffold.Proofs.OpenApi.References
import ApiScaffold.Proofs.Router

/-! The operations of the API document against the endpoints that the router registers. Both are made from
the resources, in different orders and by tables of their own: they have the same methods and paths, and
each operation answers with the status, the body and the schemas of its endpoint. -/

namespace ApiScaffold

namespace ApiConfig.Accepted

variable {config : ApiConfig} {resource : ResourceSpec}

theorem isHarmless (h : config.Accepted) (hresource : resource ∈ config.resources) :
    Router.IsHarmless resource.name :=
  Router.isHarmless_of_isIdentifier (h.admitted.identifiers _ (List.mem_map_of_mem hresource))

end ApiConfig.Accepted

namespace OpenApi

open Json

/-- The paths of a document. -/
def pathsOf (document : Json) : List (String × Json) := ((document.member? "paths").map members).getD []

section Config

variable {config : ApiConfig} {serverUrl : Option String} {document : Json} {file : Artifact}

theorem map_fst_paths (config : ApiConfig) :
    (config.resources.flatMap paths).map Prod.fst = config.resources.flatMap fun resource =>
      [Naming.collectionPath resource.name, Endpoint.itemPath resource.name] := by
  rw [List.map_flatMap]
  rfl

/-- The paths of all resources are different exactly if those for all records are. -/
theorem paths_nodup_iff : ((config.resources.flatMap paths).map Prod.fst).Nodup ↔
    Endpoint.RoutesApart config := by
  have hne := Endpoint.collectionPath_ne_itemPath
  rw [map_fst_paths]
  refine nodup_flatMap_iff (fun resource => ?_) fun resource other => ?_
  · simp [hne]
  · simp only [List.disjoint_cons_left, List.disjoint_nil_left, List.mem_cons, List.not_mem_nil, or_false,
      not_or, hne, (hne _ _).symm, Endpoint.itemPath_inj, not_false_eq_true, and_true, true_and, and_self]

theorem pathsOf_documentOf (config : ApiConfig) (serverUrl : Option String)
    (schemas : List (String × Json)) :
    pathsOf (documentOf config serverUrl schemas) = Keyed.ofList (config.resources.flatMap paths) := by
  rw [documentOf]
  cases someText serverUrl <;> rfl

end Config

end OpenApi

end ApiScaffold
