import ApiScaffold.Artifact.Basic
import ApiScaffold.Generation.Fault
import ApiScaffold.OpenApi.Path

/-!
The API document as a whole.
-/

namespace ApiScaffold.OpenApi

def formatVersion : String := "3.0.0"

def document (config : ApiConfig) (serverUrl : Option String) : Except Schema.MappingFault Json := do
  let schemas ← config.resources.mapM components
  let description := (someText config.description).getD s!"CRUD API for {config.name}"
  return object ([("openapi", .text formatVersion),
      ("info", object [("title", .text config.name), ("version", .text (config.shownVersion)),
        ("description", .text description)])]
    ++ (someText serverUrl).toList.map (fun url => ("servers", .array [object [("url", .text url)]]))
    ++ [("paths", object (Keyed.ofList (config.resources.flatMap paths))),
      ("components", object [("schemas", object (Keyed.ofList schemas.flatten))])])

def artifact (config : ApiConfig) (serverUrl : Option String) : Except GenerationFault Artifact := do
  let document ← (document config serverUrl).mapError .mapping
  if document.hasText then
    return { name := "openapi", content := document.indented ++ "\n", path := some "openapi.json" }
  else throw (.literal .numberTooLong)

end ApiScaffold.OpenApi
