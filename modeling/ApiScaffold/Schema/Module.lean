import ApiScaffold.Artifact.Basic
import ApiScaffold.Generation.Fault
import ApiScaffold.Schema.Resource

/-!
The schema module of a resource: a header, imports, the four models, and the list of exports.
-/

namespace ApiScaffold.Schema

def docQuotes : String := "\"\"\""

def generatedLine : String := "Auto-generated by CrudGen. Do not edit."

/-- The first lines of a generated module: a doc text, and the import of deferred annotations. -/
def header (title : String) : List String :=
  [docQuotes, title, generatedLine, docQuotes, "", "from __future__ import annotations", ""]

def exportLines (names : List String) : List String :=
  "__all__ = [" :: names.map (fun name => s!"{indent}{textLiteral name},") ++ ["]", ""]

/-- Puts two empty lines behind every group of lines. -/
def spaced (groups : List (List String)) : List String :=
  groups.flatMap fun lines => lines ++ ["", ""]

def moduleText (resource : ResourceSpec) (mappings : Mappings) : Except LiteralFault String := do
  let groups ← (models resource mappings).mapM Model.lines
  return Text.joinLines
    (header s!"Validation schemas for resource: {resource.name}"
      ++ [(moduleImports resource mappings).block, "", ""]
      ++ spaced groups
      ++ exportLines (Naming.schemaNames resource.name).toList)

def named (artifact : Artifact) : Except GenerationFault Artifact :=
  if artifact.name.isEmpty then .error (.shape ⟨["name"], .textTooShort 1⟩) else .ok artifact

def artifact (resource : ResourceSpec) : Except GenerationFault Artifact := do
  let mappings ← (mappings resource).mapError .mapping
  let content ← (moduleText resource mappings).mapError .literal
  named {
    name := Naming.moduleName resource.name
    content := content
    path := some (Naming.schemaPath resource.name)
    detail := .schema resource.name (Naming.schemaNames resource.name).toList }

/-- The schema artifacts of a configuration, in the order of its resources. -/
def artifacts (config : ApiConfig) : Except GenerationFault (List Artifact) :=
  config.resources.mapM artifact

end ApiScaffold.Schema
