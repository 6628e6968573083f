import ApiScaffold.Artifact.Basic
import ApiScaffold.Migration.Seed
import ApiScaffold.Migration.Sequence

/-!
Migrations: scripts with a token in front of their name. The script is made before the token is
taken.
-/

namespace ApiScaffold.Migration

def artifactOf (name content : String) (kind : MigrationKind) (resource : Option String) : Artifact :=
  { name := name
    content := content
    checksum := some (Digest.checksum content)
    path := some s!"migrations/{name}.sql"
    detail := .migration kind resource }

/-- Takes a token for a script that could be made. -/
def issue (content : Except GenerationFault String) (label : String) (kind : MigrationKind)
    (resource : Option String) : Issuing Artifact := do
  let content ← Issuing.ofExcept content
  let token ← issueToken
  return artifactOf s!"{token}_{label}" content kind resource

/-! ### Tables -/

def tableScript (tables : List Sql.Table) (table : Sql.Table) : Except GenerationFault String :=
  ((Sql.createTable tables table).mapError .sql).map fun ddl =>
    s!"-- Create {table.name} table\n{ddl};\n"

def createTable (tables : List Sql.Table) (resource : ResourceSpec) (table : Sql.Table) :
    Issuing Artifact :=
  issue (tableScript tables table) s!"{resource.name}_create_table" .createTable (some resource.name)

/-! ### Indexes -/

def indexOf (table : Sql.Table) (index : IndexSpec) : Sql.Index :=
  ⟨Naming.indexName table.name index.fields index.unique, index.fields, index.unique⟩

def indexScript (resource : ResourceSpec) (table : Sql.Table) : Except GenerationFault String :=
  if resource.indexes.isEmpty then .error (.missingIndexes resource.name)
  else do
    let statements ← resource.indexes.mapM fun index =>
      (Sql.createIndex table (indexOf table index)).mapError .sql
    return Text.joinLines
      (s!"-- Create indexes for {table.name}" :: statements.map fun s => s ++ ";") ++ "\n"

def createIndexes (resource : ResourceSpec) (table : Sql.Table) : Issuing Artifact :=
  issue (indexScript resource table) s!"{resource.name}_create_indexes" .createIndexes
    (some resource.name)

/-! ### Whole configurations -/

/-- The resources with their tables, in order. -/
def resourceTables (config : ApiConfig) (tables : List Sql.Table) :
    List (ResourceSpec × Sql.Table) :=
  config.resources.zip tables

/-- The migrations of a configuration: all tables, then the indexes of the resources that have some. -/
def migrations (config : ApiConfig) : Issuing (List Artifact) := do
  let tables ← Issuing.ofExcept (buildTables true config.resources)
  let pairs := resourceTables config tables
  let creations ← pairs.mapM fun (resource, table) => createTable tables resource table
  let indexed := pairs.filter fun (resource, _) => !resource.indexes.isEmpty
  let indexes ← indexed.mapM fun (resource, table) => createIndexes resource table
  return creations ++ indexes

/-! ### Rollback and seed -/

def rollbackScript (resources : List ResourceSpec) : Except GenerationFault String := do
  let tables ← buildTables false resources
  return Text.joinLines ("-- Rollback" :: tables.map fun table => Sql.dropTable table ++ ";") ++ "\n"

def rollback (resources : List ResourceSpec) : Issuing Artifact :=
  issue (rollbackScript resources) "rollback" .rollback none

def seedContent (resource : ResourceSpec) (records : Value) : Except GenerationFault String :=
  if records.isNothing then .error (.emptySeed resource.name)
  else do
    let table ← buildTable false resource
    return seedScript table (← seedRows resource.name table records)

def seed (resource : ResourceSpec) (records : Value) : Issuing Artifact :=
  issue (seedContent resource records) s!"seed_{resource.tableName}" .seed (some resource.name)

end ApiScaffold.Migration
