import ApiScaffold.Generation.Fault

/-!
The table of a resource: a key, a column for each stored field, and the timestamps.
-/

namespace ApiScaffold.Migration

def keyColumn : Sql.Column :=
  { name := primaryKey, storage := .text, nullable := false, isKey := true }

def timestampColumn (name : String) : Sql.Column :=
  { name := name, storage := .text, nullable := false }

/-- The column of a field, with its relation if asked. -/
def fieldColumn (withRelations : Bool) (field : FieldSpec) : Except GenerationFault Sql.Column := do
  let mapping ← (Schema.mapField field).mapError .mapping
  let default ← (field.declaredDefault.mapM Sql.columnDefault).mapError .literal
  return {
    name := field.name
    storage := mapping.storage
    nullable := !field.required
    unique := field.unique
    default := default
    reference := if withRelations then field.target?.map Sql.referenceOf else none }

def tableOf (withRelations : Bool) (resource : ResourceSpec) : Except GenerationFault Sql.Table := do
  let columns ← resource.storedFields.mapM (fieldColumn withRelations)
  return ⟨resource.tableName,
    keyColumn :: columns ++ resource.timestamps.names.map timestampColumn⟩

/-- Puts the table of a resource into a database. -/
def addTable (withRelations : Bool) (tables : List Sql.Table) (resource : ResourceSpec) :
    Except GenerationFault (List Sql.Table) := do
  let table ← tableOf withRelations resource
  (Sql.define tables table).mapError .sql

def buildTable (withRelations : Bool) (resource : ResourceSpec) :
    Except GenerationFault Sql.Table := do
  let table ← tableOf withRelations resource
  let _ ← (Sql.define [] table).mapError .sql
  return table

def buildTables (withRelations : Bool) (resources : List ResourceSpec) :
    Except GenerationFault (List Sql.Table) :=
  resources.foldlM (addTable withRelations) []

end ApiScaffold.Migration
