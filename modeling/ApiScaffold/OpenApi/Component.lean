import ApiScaffold.Config.Query
import ApiScaffold.Keyed
import ApiScaffold.Schema.FieldMapping

/-!
The schemas of the API document. They are made from the same mappings of fields as the models.
-/

namespace ApiScaffold.OpenApi

def object (members : List (String × Json)) : Json := .object members

/-- The schema of a basic type. -/
def typed (name : String) : Json := object [("type", .text name)]

/-- The schema of a text in a format. -/
def formatted (format : String) : Json := object [("type", .text "string"), ("format", .text format)]

def refTo (name : String) : Json := object [("$ref", .text s!"#/components/schemas/{name}")]

def properties (fields : List FieldSpec) : Except Schema.MappingFault (List (String × Json)) :=
  fields.mapM fun field =>
    (Schema.mapField field).map fun mapping => (field.name, object mapping.apiSchema)

def requiredNames (fields : List FieldSpec) : List String :=
  (fields.filter FieldSpec.required).map FieldSpec.name

def recordProperties (resource : ResourceSpec) :
    Except Schema.MappingFault (List (String × Json)) := do
  let declared ← properties resource.storedFields
  let times := resource.timestamps.names.map fun name => (name, formatted "date-time")
  return Keyed.ofList ((primaryKey, formatted "uuid") :: declared ++ times)

/-- The names that every full record has. -/
def recordRequired (resource : ResourceSpec) : List String :=
  primaryKey :: requiredNames resource.storedFields ++ resource.timestamps.names

def recordComponent (resource : ResourceSpec) : Except Schema.MappingFault Json := do
  let members ← recordProperties resource
  return object ([("type", .text "object"), ("properties", object members),
      ("required", .texts (recordRequired resource))]
    ++ (someText resource.description).toList.map fun d => ("description", .text d))

def bodyProperties (resource : ResourceSpec) :
    Except Schema.MappingFault (List (String × Json)) :=
  (properties resource.clientFields).map Keyed.ofList

def components (resource : ResourceSpec) : Except Schema.MappingFault (List (String × Json)) := do
  let names := Naming.schemaNames resource.name
  let record ← recordComponent resource
  let body ← bodyProperties resource
  let required := requiredNames resource.clientFields
  let create := object ([("type", .text "object"), ("properties", object body)]
    ++ (if required.isEmpty then [] else [("required", .texts required)]))
  let update := object [("type", .text "object"), ("properties", object body)]
  return Keyed.ofList [(names.record, record), (names.create, create), (names.update, update)]

end ApiScaffold.OpenApi
