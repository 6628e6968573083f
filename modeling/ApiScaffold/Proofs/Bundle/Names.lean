import Mathlib
import ApiScaffold.Proofs.Bundle.FileMap
import ApiScaffold.Proofs.Check.Fields
import ApiScaffold.Proofs.OpenApi.Operations
import ApiScaffold.Proofs.TypeExports

/-! The names that resources bring into one place: paths and components of the API document, routes of the
router, and exports of the module of combined types. Paths and classes are made of the words of a name,
which are coarser than the names of tables that the checks compare. So nothing is shadowed exactly if the
paths and the classes of different resources differ, and no class has the name of a fixed export. -/

namespace ApiScaffold

open Sequence

/-- The names of the components of a resource. -/
def ResourceSpec.componentNames (resource : ResourceSpec) : List String :=
  [(Naming.schemaNames resource.name).record, (Naming.schemaNames resource.name).create,
    (Naming.schemaNames resource.name).update]

/-- The names that the schemas of a resource export. -/
def ResourceSpec.exportedNames (resource : ResourceSpec) : List String :=
  (Naming.schemaNames resource.name).toList

namespace ApiConfig

/-- No component of a resource has the name of a component of another. -/
def ComponentsApart (config : ApiConfig) : Prop :=
  config.resources.Pairwise fun resource other =>
    ∀ name ∈ resource.componentNames, name ∉ other.componentNames

/-- No schema of a resource has the name of a schema of another, or of a fixed export. -/
structure ExportsApart (config : ApiConfig) : Prop where
  schemas : config.resources.Pairwise fun resource other =>
    ∀ name ∈ resource.exportedNames, name ∉ other.exportedNames
  fixed : ∀ name ∈ TypeExports.fixedExports, ∀ resource ∈ config.resources,
    name ∉ resource.exportedNames

instance (config : ApiConfig) : Decidable config.ComponentsApart :=
  inferInstanceAs (Decidable (List.Pairwise _ _))

theorem exportsApart_iff {config : ApiConfig} :
    config.ExportsApart ↔
      (config.resources.Pairwise fun resource other =>
        ∀ name ∈ resource.exportedNames, name ∉ other.exportedNames) ∧
      ∀ name ∈ TypeExports.fixedExports, ∀ resource ∈ config.resources, name ∉ resource.exportedNames :=
  ⟨fun h => ⟨h.schemas, h.fixed⟩, fun h => ⟨h.1, h.2⟩⟩

instance (config : ApiConfig) : Decidable config.ExportsApart := decidable_of_iff _ exportsApart_iff.symm

end ApiConfig

theorem componentNames_nodup (resource : ResourceSpec) : resource.componentNames.Nodup :=
  OpenApi.schemaNames_nodup resource.name

theorem exportedNames_nodup (resource : ResourceSpec) : resource.exportedNames.Nodup := by
  have hquery : (Naming.schemaNames resource.name).query ∉ resource.componentNames := by
    intro hmem
    have hlengths : ∀ name ∈ resource.componentNames,
        name.length = (Naming.className resource.name).length ∨
          name.length = 6 + (Naming.className resource.name).length := by
      have hwords : "Create".length = 6 ∧ "Update".length = 6 := by decide
      simpa [ResourceSpec.componentNames, Naming.schemaNames, String.length_append] using hwords
    have hlength : (Naming.schemaNames resource.name).query.length =
        (Naming.className resource.name).length + 5 := String.length_append _ _
    have hsame := hlengths _ hmem
    omega
  have hnames : resource.exportedNames =
      resource.componentNames ++ [(Naming.schemaNames resource.name).query] := rfl
  rw [hnames, List.nodup_append']
  exact ⟨componentNames_nodup resource, List.nodup_singleton _,
    List.disjoint_singleton.mpr hquery⟩

/-! ### The API document -/

section Document

variable {config : ApiConfig} {serverUrl : Option String} {document : Json}

theorem length_pathsOf_iff (h : OpenApi.document config serverUrl = .ok document) :
    (OpenApi.pathsOf document).length = 2 * config.resources.length ↔ Endpoint.RoutesApart config := by
  obtain ⟨schemas, -, rfl⟩ := OpenApi.document_eq_ok.mp h
  have hlength : (config.resources.flatMap OpenApi.paths).length = 2 * config.resources.length := by
    simp [OpenApi.paths, List.length_flatMap, Nat.mul_comm]
  rw [OpenApi.pathsOf_documentOf, ← hlength, Keyed.length_ofList_iff, OpenApi.paths_nodup_iff]

theorem length_componentNames_iff (h : OpenApi.document config serverUrl = .ok document) :
    (OpenApi.componentNames document).length = 3 * config.resources.length ↔ config.ComponentsApart := by
  obtain ⟨schemas, hschemas, rfl⟩ := OpenApi.document_eq_ok.mp h
  have hnames : schemas.flatten.map Prod.fst = config.resources.flatMap ResourceSpec.componentNames := by
    have heach : schemas.map (fun made => made.map Prod.fst) =
        config.resources.map ResourceSpec.componentNames := by
      refine Outcome.mapM_map_eq hschemas fun resource _ made hmade => ?_
      obtain ⟨members, body, -, -, rfl⟩ := OpenApi.components_eq_ok hmade
      rfl
    rw [List.map_flatten, heach, List.flatMap_def]
  have hlength : schemas.flatten.length = 3 * config.resources.length := by
    rw [← List.length_map Prod.fst, hnames]
    simp [ResourceSpec.componentNames, List.length_flatMap, Nat.mul_comm]
  rw [OpenApi.componentNames_documentOf, List.length_map, ← hlength, Keyed.length_ofList_iff, hnames,
    List.nodup_flatMap, ApiConfig.ComponentsApart]
  exact and_iff_right fun resource _ => componentNames_nodup resource

theorem exists_document (h : config.Accepted) (serverUrl : Option String) :
    ∃ document, OpenApi.document config serverUrl = .ok document := by
  obtain ⟨schemas, hschemas⟩ := OpenApi.exists_schemas fun resource hresource field hfield =>
    h.exists_mapField hresource hfield
  exact ⟨_, OpenApi.document_eq_ok.mpr ⟨schemas, hschemas, rfl⟩⟩

end Document

/-! ### The router and the types -/

section Run

variable {config : ApiConfig} {options : Bundle.Options} {before after : Sequence} {bundle : Bundle}

theorem Generated.registrations (h : Generated config options before bundle after)
    (haccepted : config.Accepted) :
    Router.registrations bundle.router.content = Endpoint.routes config := by
  rw [h.router, h.endpoints]
  exact Router.registrations_artifact fun resource hresource => haccepted.isHarmless hresource

theorem length_routes (config : ApiConfig) :
    (Endpoint.routes config).length = 5 * config.resources.length := by
  simp [Endpoint.routes, Operation.all, List.length_flatMap, Nat.mul_comm]

theorem Generated.exportedNames_nodup_iff (h : Generated config options before bundle after) :
    (TypeExports.exportedNames bundle.types.content).Nodup ↔ config.ExportsApart := by
  have hexports : TypeExports.exportedNames bundle.types.content =
      TypeExports.fixedExports ++ config.resources.flatMap ResourceSpec.exportedNames := by
    rw [h.types]
    exact TypeExports.exportedNames_artifact h.schemas
  have hfixed : TypeExports.fixedExports.Nodup := by decide
  rw [hexports, List.nodup_append', List.nodup_flatMap, ApiConfig.exportsApart_iff]
  constructor
  · rintro ⟨-, ⟨-, hpairs⟩, hdisjoint⟩
    exact ⟨hpairs, fun name hname resource hresource hmem =>
      hdisjoint hname (List.mem_flatMap.mpr ⟨resource, hresource, hmem⟩)⟩
  · rintro ⟨hpairs, hothers⟩
    refine ⟨hfixed, ⟨fun resource _ => exportedNames_nodup resource, hpairs⟩, fun name hname hmem => ?_⟩
    obtain ⟨resource, hresource, hown⟩ := List.mem_flatMap.mp hmem
    exact hothers name hname resource hresource hown

/-- **Which names are shadowed.** In what is built of an accepted configuration of n resources, the
router registers 5n routes. They are different exactly if the paths for all records of the resources
differ, and then the API document has 2n paths; it has 3n components exactly if the resources share none,
and the module of types exports every name once exactly if they share no schema and none is a fixed
export. -/
theorem names_apart_iff (h : run (build config options) before = (.ok bundle, after)) :
    (Router.registrations bundle.router.content).length = 5 * config.resources.length ∧
      ((Router.registrations bundle.router.content).Nodup ↔ Endpoint.RoutesApart config) ∧
      ((TypeExports.exportedNames bundle.types.content).Nodup ↔ config.ExportsApart) ∧
      (∀ serverUrl, ∃ document, OpenApi.document config serverUrl = .ok document ∧
        ((OpenApi.pathsOf document).length = 2 * config.resources.length ↔ Endpoint.RoutesApart config) ∧
        ((OpenApi.componentNames document).length = 3 * config.resources.length ↔
          config.ComponentsApart)) ∧
      ∀ file ∈ bundle.openApi, ∃ document, OpenApi.document config options.serverUrl = .ok document ∧
        file.content = document.indented ++ "\n" := by
  obtain ⟨haccepted, hgenerated⟩ := run_build_eq_ok h
  rw [hgenerated.registrations haccepted]
  refine ⟨length_routes config, Endpoint.routes_nodup_iff, hgenerated.exportedNames_nodup_iff,
    fun serverUrl => ?_, fun file hfile => ?_⟩
  · obtain ⟨document, hdocument⟩ := exists_document haccepted serverUrl
    exact ⟨document, hdocument, length_pathsOf_iff hdocument, length_componentNames_iff hdocument⟩
  · obtain ⟨document, hdocument, -, rfl⟩ :=
      OpenApi.artifact_eq_ok_iff.mp (hgenerated.openApi file hfile)
    exact ⟨document, hdocument, rfl⟩

/-- A class may also be what another resource makes for its requests. -/
example : (Naming.schemaNames "CreatePost").record = (Naming.schemaNames "Post").create := by decide

/-- In a blog nothing is shadowed. -/
theorem names_apart_blog :
    ∃ bundle after, run (build Blog.config {}) { stamp := "202401010000" } = (.ok bundle, after) ∧
      Endpoint.RoutesApart Blog.config ∧ Blog.config.ExportsApart ∧
      (Router.registrations bundle.router.content).Nodup ∧
      (TypeExports.exportedNames bundle.types.content).Nodup := by
  obtain ⟨bundle, after, hrun⟩ := exists_of_isOk
    (show (run (build Blog.config {}) { stamp := "202401010000" }).1.isOk = true by decide +kernel)
  obtain ⟨-, hroutes, hexports, -⟩ := names_apart_iff hrun
  have hapart : Endpoint.RoutesApart Blog.config := by decide +kernel
  have hnames : Blog.config.ExportsApart := by decide +kernel
  exact ⟨bundle, after, hrun, hapart, hnames, hroutes.mpr hapart, hexports.mpr hnames⟩

end Run

/-! ### Names that agree -/

/-- Two names of the same words. Their tables differ, their paths and classes do not. -/
def twoPosts : ApiConfig where
  name := "Blog"
  resources := [
    { name := "Post2", fields := [{ name := "title", type := .string }] },
    { name := "Post_2", fields := [{ name := "title", type := .string }] }]

/-- A configuration may be accepted and built, and one of its two resources shadow the other everywhere:
of 4 paths 2 are left and of 6 components 3, and routes and exports are there twice. -/
theorem names_shadowed_twoPosts :
    twoPosts.Accepted ∧ ∃ bundle after document,
      run (build twoPosts {}) { stamp := "202401010000" } = (.ok bundle, after) ∧
      OpenApi.document twoPosts none = .ok document ∧ (OpenApi.pathsOf document).length = 2 ∧
      (OpenApi.componentNames document).length = 3 ∧
      ¬(Router.registrations bundle.router.content).Nodup ∧
      ¬(TypeExports.exportedNames bundle.types.content).Nodup := by
  obtain ⟨bundle, after, hrun⟩ := exists_of_isOk
    (show (run (build twoPosts {}) { stamp := "202401010000" }).1.isOk = true by decide +kernel)
  obtain ⟨haccepted, hgenerated⟩ := run_build_eq_ok hrun
  have hlengths : (OpenApi.document twoPosts none).toOption.map (fun document =>
      ((OpenApi.pathsOf document).length, (OpenApi.componentNames document).length)) = some (2, 3) := by
    decide +kernel
  obtain ⟨document, hdocument, hcounts⟩ := Option.map_eq_some_iff.mp hlengths
  obtain ⟨hpaths, hcomponents⟩ := Prod.mk.inj hcounts
  have hroutes : ¬Endpoint.RoutesApart twoPosts := by decide +kernel
  have hexports : ¬twoPosts.ExportsApart := by decide +kernel
  refine ⟨haccepted, bundle, after, document, hrun, Outcome.toOption_eq_some.mp hdocument, hpaths,
    hcomponents, ?_, fun hnodup => hexports (hgenerated.exportedNames_nodup_iff.mp hnodup)⟩
  rw [hgenerated.registrations haccepted]
  exact fun hnodup => hroutes (Endpoint.routes_nodup_iff.mp hnodup)

end ApiScaffold
