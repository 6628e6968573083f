import Mathlib
import ApiScaffold.Proofs.Bundle.Changes
import ApiScaffold.Proofs.Schema.Module
import ApiScaffold.Proofs.Text.Lines

/-! The inventory of a build: its schemas, endpoints and migrations in the order of the resources, the
tokens that the migrations take one after another, and the numbers of artifacts and lines that this comes
to. -/

namespace ApiScaffold

open Sequence

/-- The resources that declare indexes. -/
def ApiConfig.indexed (config : ApiConfig) : List ResourceSpec :=
  config.resources.filter fun resource => !resource.indexes.isEmpty

/-- How many scripts a configuration has: one for each table, and one for the indexes of a table. -/
def ApiConfig.scriptCount (config : ApiConfig) : Nat := config.resources.length + config.indexed.length

/-- The operation of an endpoint, with the resource that it is for. -/
def Artifact.operation? (artifact : Artifact) : Option (String × Operation) :=
  match artifact.detail with
  | .endpoint spec => some (spec.resource, spec.operation)
  | _ => none

namespace Migration

/-- What an artifact is called, and what it is. -/
def titleOf (artifact : Artifact) : String × ArtifactDetail := (artifact.name, artifact.detail)

/-- The title of a script of one kind for a resource. -/
def scriptTitle (kind : MigrationKind) (token : String) (resource : ResourceSpec) :
    String × ArtifactDetail :=
  (token ++ "_" ++ resource.name ++ "_" ++ kind.name, .migration kind (some resource.name))

variable {before after : Sequence} {tokens : List String}

/-- Scripts of one kind have their titles in the order of their resources, under tokens that follow one
another. -/
theorem map_titleOf_of_isScript {kind : MigrationKind}
    {content : ResourceSpec × Sql.Table → Except GenerationFault String}
    {pairs : List (ResourceSpec × Sql.Table)} {artifacts : List Artifact}
    (h : List.Forall₂ (IsScript kind content) (pairs.zip tokens) artifacts)
    (hlength : tokens.length = pairs.length) (htaken : Taken before tokens after) :
    artifacts.map titleOf = (pairs.map Prod.fst).mapIdx fun i resource =>
      scriptTitle kind (before.tokenAt (before.next + i)) resource := by
  have htitles : artifacts.map titleOf =
      (pairs.zip tokens).map fun entry => scriptTitle kind entry.2 entry.1.1 := by
    apply map_eq_map_of_forall₂ h
    rintro entry - artifact ⟨text, -, rfl⟩
    simp only [titleOf, scriptTitle, artifactOf, String.append_assoc]
  rw [htitles]
  apply List.ext_getElem
  · simp [hlength]
  · intro i hi hi'
    simp [htaken.getElem_eq]

/-- The migrations of a configuration create all tables first and all indexes then. -/
theorem map_titleOf_of_run {config : ApiConfig} {artifacts : List Artifact}
    (h : run (migrations config) before = (.ok artifacts, after)) :
    artifacts.map titleOf =
      (config.resources.mapIdx fun i resource =>
        scriptTitle .createTable (before.tokenAt (before.next + i)) resource) ++
      config.indexed.mapIdx fun i resource =>
        scriptTitle .createIndexes (before.tokenAt (before.next + (config.resources.length + i : Nat)))
          resource := by
  obtain ⟨tables, creations, indexes, tokens, tokens', between, hbuilt, htaken, htaken', hlength,
    hlength', hcreations, hindexes, rfl⟩ := run_migrations_eq_ok h
  have hcount : tokens.length = config.resources.length := by
    rw [hlength, ← map_fst_resourceTables hbuilt, List.length_map]
  rw [List.map_append, map_titleOf_of_isScript hcreations hlength htaken,
    map_titleOf_of_isScript hindexes hlength' htaken', map_fst_resourceTables hbuilt,
    map_fst_indexedTables hbuilt, htaken.after_eq, hcount]
  simp only [tokenAt, Nat.cast_add, add_assoc]
  rfl

theorem length_scripts (config : ApiConfig) : (scripts config).length = config.scriptCount := by
  rw [scripts, List.length_append, List.length_map, List.length_map]
  rfl

/-- The migrations of a configuration take one token each, and these follow one another. -/
theorem exists_taken_of_run {config : ApiConfig} {artifacts : List Artifact}
    (h : run (migrations config) before = (.ok artifacts, after)) :
    ∃ tokens, Taken before tokens after ∧ tokens.length = config.scriptCount ∧
      artifacts.length = config.scriptCount := by
  obtain ⟨tokens, htaken, hlength, hissued⟩ := run_migrations h
  rw [length_scripts] at hlength
  refine ⟨tokens, htaken, hlength, ?_⟩
  rw [← hissued.length_eq, List.length_zip, length_scripts, hlength, min_self]

end Migration

/-! ### Whole builds -/

/-- What there is in a build, in order, and how much. -/
structure Inventory (config : ApiConfig) (options : Bundle.Options) (before : Sequence)
    (bundle : Bundle) (after : Sequence) : Prop where
  /-- One schema for each resource. -/
  schemas : bundle.schemas.map Artifact.detail = config.resources.map fun resource =>
    .schema resource.name (Naming.schemaNames resource.name).toList
  /-- Five endpoints for each resource. -/
  endpoints : bundle.endpoints.map Artifact.operation? = config.resources.flatMap fun resource =>
    [Operation.create, .list, .get, .update, .delete].map fun operation => some (resource.name, operation)
  /-- One script for each table, then one for the indexes of each table that has some. -/
  migrations : bundle.migrations.map Migration.titleOf =
    (config.resources.mapIdx fun i resource =>
      Migration.scriptTitle .createTable (before.tokenAt (before.next + i)) resource) ++
    config.indexed.mapIdx fun i resource =>
      Migration.scriptTitle .createIndexes
        (before.tokenAt (before.next + (config.resources.length + i : Nat))) resource
  /-- The tokens are those that the sequence gives at the counters in a row. -/
  tokens : ∀ i < config.scriptCount,
    ({ before with next := before.next + i } : Sequence).token = .ok (before.tokenAt (before.next + i))
  /-- The sequence has issued these tokens and no other, and goes on behind them. -/
  after_eq : after = { before with
    next := before.next + config.scriptCount
    issued := before.issued ++
      (List.range config.scriptCount).map fun i : Nat => before.tokenAt (before.next + i) }
  schema_count : bundle.schemas.length = config.resources.length
  endpoint_count : bundle.endpoints.length = 5 * config.resources.length
  migration_count : bundle.migrations.length = config.resources.length + config.indexed.length
  artifact_count : bundle.artifacts.length =
    7 * config.resources.length + config.indexed.length + 2 + if options.includeOpenApi then 1 else 0
  /-- The lines of all contents are counted. -/
  line_count : bundle.lineCount =
    (bundle.artifacts.map fun artifact => (Text.closedLines artifact.content).length).sum

section Run

variable {config : ApiConfig} {options : Bundle.Options} {before after : Sequence} {bundle : Bundle}

theorem Generated.schema_details (h : Generated config options before bundle after) :
    bundle.schemas.map Artifact.detail = config.resources.map fun resource =>
      .schema resource.name (Naming.schemaNames resource.name).toList :=
  Outcome.mapM_map_eq h.schemas fun _ _ _ hmade => (Schema.artifact_made hmade).2

theorem Generated.endpoint_operations (h : Generated config options before bundle after) :
    bundle.endpoints.map Artifact.operation? = config.resources.flatMap fun resource =>
      [Operation.create, .list, .get, .update, .delete].map fun operation =>
        some (resource.name, operation) := by
  rw [h.endpoints, Endpoint.artifacts, List.map_flatMap]
  rfl

theorem Bundle.lineCount_eq (bundle : Bundle) :
    bundle.lineCount =
      (bundle.artifacts.map fun artifact => (Text.closedLines artifact.content).length).sum := by
  rw [Bundle.lineCount, List.sum, List.foldr_map]
  simp only [Artifact.lineCount, Text.countLines_eq]

/-- **What a build comes to.** A build of n resources, of which m declare indexes, has n schemas, 5n
endpoints and n + m migrations, each in the order of the resources. The migrations create all tables first
and all indexes then, and take the tokens of n + m counters in a row, which are all that the sequence
issues. That makes 7n + m + 2 artifacts, and one more with an API document; their lines are the lines of
their contents. -/
theorem build_inventory (h : run (build config options) before = (.ok bundle, after)) :
    Inventory config options before bundle after := by
  obtain ⟨-, hgenerated⟩ := run_build_eq_ok h
  obtain ⟨tokens, htaken, hlength, hmigrations⟩ :=
    Migration.exists_taken_of_run hgenerated.migrations
  have hschemas : bundle.schemas.length = config.resources.length := by
    rw [← List.length_map Artifact.detail, hgenerated.schema_details, List.length_map]
  have hendpoints : bundle.endpoints.length = 5 * config.resources.length := by
    rw [← List.length_map Artifact.operation?, hgenerated.endpoint_operations]
    simp [List.length_flatMap, Nat.mul_comm]
  have hdocument : bundle.openApi.toList.length = if options.includeOpenApi then 1 else 0 := by
    rw [← isSome_openApi_of_run (run_generate_of_build h)]
    cases bundle.openApi <;> rfl
  exact
    { schemas := hgenerated.schema_details
      endpoints := hgenerated.endpoint_operations
      migrations := Migration.map_titleOf_of_run hgenerated.migrations
      tokens := by
        intro i hi
        have hi : i < tokens.length := hlength ▸ hi
        rw [htaken.token_getElem hi, htaken.getElem_eq hi]
      after_eq := by
        rw [htaken.after_eq, hlength, ← hlength, ← htaken.eq_map]
      schema_count := hschemas
      endpoint_count := hendpoints
      migration_count := hmigrations
      artifact_count := by
        rw [Bundle.artifacts]
        simp only [List.length_append, hschemas, hendpoints, hmigrations, hdocument,
          ApiConfig.scriptCount, List.length_cons, List.length_nil]
        omega
      line_count := bundle.lineCount_eq }

/-- A blog of two resources, one of them with an index, counts on from seven. -/
theorem build_inventory_blog :
    ∃ bundle after, run (build Blog.config {}) { stamp := "202401010000", next := 7 } =
        (.ok bundle, after) ∧
      Inventory Blog.config {} { stamp := "202401010000", next := 7 } bundle after ∧
      bundle.artifacts.length = 18 ∧ after.next = 10 ∧ after.issued =
        ["202401010000_0007", "202401010000_0008", "202401010000_0009"] := by
  obtain ⟨bundle, after, hrun⟩ := exists_of_isOk
    (show (run (build Blog.config {}) { stamp := "202401010000", next := 7 }).1.isOk = true by
      decide +kernel)
  have hinventory := build_inventory hrun
  refine ⟨bundle, after, hrun, hinventory, hinventory.artifact_count, ?_, ?_⟩
  · rw [hinventory.after_eq]
    decide
  · rw [hinventory.after_eq]
    decide +kernel

end Run

end ApiScaffold
