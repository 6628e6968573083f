import ApiScaffold.Schema.Module

/-!
The module of combined types: it exports the models of all resources again, with the constants of the
database and the record type of each resource.
-/

namespace ApiScaffold.TypeExports

open Schema (indent)

def schemaImport (resource : String) (exports : List String) : String :=
  s!"from .schemas.{Naming.moduleName resource} import "
    ++ String.intercalate ", " (Imports.sortTexts exports)

/-- The names that the module of types always exports. -/
def fixedExports : List String := ["DATABASE_NAME", "DATABASE_BINDING", "Resources"]

def schemaExports (schemas : List Artifact) : List (String × List String) :=
  schemas.filterMap fun artifact =>
    match artifact.detail with
    | .schema resource exports => some (resource, exports)
    | _ => none

def moduleText (config : ApiConfig) (exports : List (String × List String)) : String :=
  Text.joinLines
    (Schema.header s!"Combined type exports for API: {config.name}"
      ++ ["from typing import TypedDict", ""]
      ++ exports.map (fun entry => schemaImport entry.1 entry.2)
      ++ ["", s!"DATABASE_NAME = {textLiteral config.databaseName}",
        s!"DATABASE_BINDING = {textLiteral config.databaseBinding}", "", "",
        "class Resources(TypedDict):",
        indent ++ "\"\"\"Record type of every resource, keyed by resource name.\"\"\"", ""]
      ++ config.resources.map (fun resource => s!"{indent}{resource.name}: {resource.className}")
      ++ ["", ""]
      ++ Schema.exportLines (fixedExports ++ exports.flatMap (·.2)))

def artifact (config : ApiConfig) (schemas : List Artifact) : Artifact :=
  { name := "types"
    content := moduleText config (schemaExports schemas)
    path := some "types.py" }

end ApiScaffold.TypeExports
