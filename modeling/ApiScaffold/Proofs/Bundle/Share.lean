import Mathlib
import ApiScaffold.Proofs.Bundle.FileMap
import ApiScaffold.Proofs.Migration.Contents

/-! What a run makes for one resource: a schema, an endpoint for each operation, and the migrations of its
table and its indexes. Another resource may decide whether there is a run, if a relation leads to it, but
never what a run makes for this one. -/

namespace ApiScaffold

open Sequence

/-- What a run makes for a resource. Migrations are told by their keys and contents; their names have
tokens in them, which depend on the other scripts. -/
structure Share where
  schemas : List Artifact
  endpoints : List Artifact
  migrations : List (String × String)
  deriving DecidableEq, Repr

/-- The share of a resource in what was made. -/
def Bundle.share (bundle : Bundle) (name : String) : Share where
  schemas := bundle.schemas.filter fun artifact => artifact.owner? == some name
  endpoints := bundle.endpoints.filter fun artifact => artifact.owner? == some name
  migrations := (bundle.migrations.filter fun artifact => artifact.owner? == some name).map
    fun artifact => (artifact.key, artifact.content)

/-- The share of a resource, made of it alone. -/
def ResourceSpec.share (resource : ResourceSpec) : Except GenerationFault Share := do
  let schema ← Schema.artifact resource
  let migrations ← Migration.contents resource
  return ⟨[schema], Operation.all.map (Endpoint.artifact resource), migrations⟩

theorem Schema.artifact_owner {resource : ResourceSpec} {made : Artifact}
    (h : artifact resource = .ok made) : made.owner? = some resource.name := by
  rw [Artifact.owner?, (artifact_made h).2]

variable {config config' : ApiConfig} {options options' : Bundle.Options}
  {before before' after after' : Sequence} {bundle bundle' : Bundle} {resource : ResourceSpec}

/-- Among the endpoints of resources of different names, a resource selects its own. -/
theorem Endpoint.filter_artifacts (hnodup : config.resourceNames.Nodup)
    (hmem : resource ∈ config.resources) :
    ((Endpoint.artifacts config).filter fun artifact => artifact.owner? == some resource.name) =
      Operation.all.map (Endpoint.artifact resource) := by
  have heach : ∀ other : ResourceSpec,
      ((Operation.all.map (Endpoint.artifact other)).filter fun artifact =>
        artifact.owner? == some resource.name) =
      if other.name == resource.name then Operation.all.map (Endpoint.artifact other) else [] := by
    intro other
    have howner : ∀ operation, (Endpoint.artifact other operation).owner? = some other.name :=
      fun _ => rfl
    cases hsame : other.name == resource.name <;>
      simp [List.filter_map, Function.comp_def, howner, hsame]
  have hselected := filter_eq_singleton hnodup hmem
  calc ((Endpoint.artifacts config).filter fun artifact => artifact.owner? == some resource.name)
      = config.resources.flatMap fun other =>
          if other.name == resource.name then Operation.all.map (Endpoint.artifact other) else [] := by
        rw [Endpoint.artifacts, List.filter_flatMap]
        exact List.flatMap_congr fun other _ => heach other
    _ = (config.resources.filter fun other => other.name == resource.name).flatMap fun other =>
          if other.name == resource.name then Operation.all.map (Endpoint.artifact other) else [] :=
        (flatMap_filter fun other _ hother => by rw [hother]; rfl).symm
    _ = Operation.all.map (Endpoint.artifact resource) := by
        rw [hselected]
        simp

theorem run_build_share (h : run (build config options) before = (.ok bundle, after))
    (hmem : resource ∈ config.resources) : resource.share = .ok (bundle.share resource.name) := by
  obtain ⟨haccepted, hgenerated⟩ := run_build_eq_ok h
  have hnodup := haccepted.resourceNames_nodup
  have hname : resource.name ≠ "" := Naming.ne_empty_of_isIdentifier
    (haccepted.admitted.identifiers _ (List.mem_map_of_mem hmem))
  have hnames : (config.resources.map fun other => some other.name).Nodup := by
    have hsome := hnodup.map (Option.some_injective String)
    rwa [ApiConfig.resourceNames, List.map_map] at hsome
  obtain ⟨schema, hschema, hfilter⟩ := exists_filter_eq_singleton
    (Outcome.mapM_eq_ok.mp hgenerated.schemas) (fun _ _ hmade => Schema.artifact_owner hmade) hnames hmem
  have hmigrations := Migration.run_migrations_contents hgenerated.migrations hnodup hmem hname
  rw [ResourceSpec.share, hschema, hmigrations, Bundle.share, hfilter, hgenerated.endpoints,
    Endpoint.filter_artifacts hnodup hmem]
  rfl

/-- **A resource is generated from itself alone.** In any two runs, whatever else their configurations
hold and in whatever order, with whatever options and from whatever tokens, a resource that both have
gets the same schema, the same five endpoints, and the same contents of its migrations under the same
keys: one for its table, and one for its indexes if it has some. -/
theorem share_eq_of_mem (h : run (build config options) before = (.ok bundle, after))
    (h' : run (build config' options') before' = (.ok bundle', after'))
    (hmem : resource ∈ config.resources) (hmem' : resource ∈ config'.resources) :
    bundle.share resource.name = bundle'.share resource.name ∧
      (bundle.share resource.name).schemas.length = 1 ∧
      (bundle.share resource.name).endpoints.length = 5 ∧
      (bundle.share resource.name).migrations.map Prod.fst =
        Migration.scriptKey (resource, .createTable) ::
          if resource.indexes.isEmpty then [] else [Migration.scriptKey (resource, .createIndexes)] := by
  have hshare := run_build_share h hmem
  have hshare' := run_build_share h' hmem'
  refine ⟨Except.ok.inj (hshare.symm.trans hshare'), ?_⟩
  obtain ⟨schema, -, hrest⟩ := Outcome.bind_eq_ok.mp hshare
  obtain ⟨migrations, hmigrations, hpure⟩ := Outcome.bind_eq_ok.mp hrest
  rw [← Except.ok.inj hpure]
  exact ⟨rfl, rfl, Migration.keys_of_contents hmigrations⟩

/-- A blog with tags, in which posts stand before their authors, and authors have a name. -/
def Blog.tagged : ApiConfig where
  name := "Tagged blog"
  resources := [
    { name := "Tag", fields := [{ name := "label", type := .string }], indexes := [⟨["label"], true⟩] },
    Blog.post,
    { Blog.author with fields := { name := "name", type := .string } :: Blog.author.fields }]

/-- The share of posts is the same in both blogs, although they refer to authors and those differ. -/
theorem share_eq_blog :
    ∃ bundle bundle' after after',
      run (build Blog.config {}) { stamp := "202401010000" } = (.ok bundle, after) ∧
      run (build Blog.tagged { includeOpenApi := false }) { stamp := "202401010000", next := 7 } =
        (.ok bundle', after') ∧
      bundle.share "Post" = bundle'.share "Post" ∧
      (bundle.share "Post").migrations.map Prod.fst =
        ["migrations/Post:create_table", "migrations/Post:create_indexes"] := by
  obtain ⟨bundle, after, hrun⟩ := exists_of_isOk
    (show (run (build Blog.config {}) { stamp := "202401010000" }).1.isOk = true by decide +kernel)
  obtain ⟨bundle', after', hrun'⟩ := exists_of_isOk
    (show (run (build Blog.tagged { includeOpenApi := false })
      { stamp := "202401010000", next := 7 }).1.isOk = true by decide +kernel)
  obtain ⟨hshare, -, -, hkeys⟩ := share_eq_of_mem hrun hrun'
    (show Blog.post ∈ Blog.config.resources by simp [Blog.config])
    (show Blog.post ∈ Blog.tagged.resources by simp [Blog.tagged])
  exact ⟨bundle, bundle', after, after', hrun, hrun', hshare, hkeys⟩

end ApiScaffold
