import ApiScaffold.Endpoint.Describe
import ApiScaffold.OpenApi.Component
import ApiScaffold.Schema.Resource

/-!
The paths of the API document: the operations of every resource with their parameters, bodies and
answers.
-/

namespace ApiScaffold.OpenApi

def queryParameter (name : String) (schema : Json) : Json :=
  object [("name", .text name), ("in", .text "query"), ("schema", schema)]

/-- The schema of a filter: booleans and choices keep theirs, all else is text. -/
def filterSchema (field : FieldSpec) : Json :=
  if field.type = .boolean then typed "boolean"
  else if field.type = .choice then
    object [("type", .text "string"), ("enum", .texts field.choiceList)]
  else typed "string"

/-- The parameters of every list query, with their schemas. -/
def fixedParameters : List (String × Json) := [
  ("limit", object [("type", .text "integer"), ("minimum", .int 1),
    ("maximum", .int Schema.maxPageSize), ("default", .int Schema.defaultPageSize)]),
  ("offset", object [("type", .text "integer"), ("minimum", .int 0), ("default", .int 0)]),
  ("orderBy", typed "string"),
  ("orderDirection", object [("type", .text "string"), ("enum", .texts ["asc", "desc"]),
    ("default", .text "asc")]),
  ("search", typed "string")]

/-- The parameters of a list query, with their schemas. -/
def listParameters (resource : ResourceSpec) : List (String × Json) :=
  fixedParameters ++ resource.queryFilters.map fun field => (field.name, filterSchema field)

def keyParameter : Json :=
  object [("name", .text primaryKey), ("in", .text "path"), ("required", .bool true),
    ("schema", formatted "uuid")]

def jsonContent (schema : Json) : Json := object [("application/json", object [("schema", schema)])]

def requestBody (name : String) : Json :=
  object [("required", .bool true), ("content", jsonContent (refTo name))]

/-- An answer without content. -/
def bareAnswer (description : String) : Json := object [("description", .text description)]

def answerWith (description : String) (schema : Json) : Json :=
  object [("description", .text description), ("content", jsonContent schema)]

def pageSchema (record : String) : Json :=
  object [("type", .text "object"), ("properties", object [
    ("data", object [("type", .text "array"), ("items", refTo record)]),
    ("total", typed "integer"), ("limit", typed "integer"), ("offset", typed "integer")])]

/-- What an operation does, in words. -/
def summaryOf (resource : String) : Operation → String
  | .list => s!"List {resource} records"
  | .create => s!"Create a {resource}"
  | .get => s!"Get a {resource} by id"
  | .update => s!"Update a {resource}"
  | .delete => s!"Delete a {resource}"

def parametersOf (resource : ResourceSpec) : Operation → Option Json
  | .list => some (.array ((listParameters resource).map fun p => queryParameter p.1 p.2))
  | .create => none
  | .get | .update | .delete => some (.array [keyParameter])

def bodyOf (resource : ResourceSpec) : Operation → Option Json
  | .create => some (requestBody (Naming.schemaNames resource.name).create)
  | .update => some (requestBody (Naming.schemaNames resource.name).update)
  | _ => none

def answersOf (resource : ResourceSpec) (operation : Operation) : List (String × Json) :=
  let record := (Naming.schemaNames resource.name).record
  let notFound := ("404", bareAnswer s!"{resource.name} not found")
  let invalid := ("422", bareAnswer "Validation error")
  match operation with
  | .list => [("200", answerWith "A page of records" (pageSchema record))]
  | .create => [("201", answerWith "Created" (refTo record)), invalid]
  | .get => [("200", answerWith "The record" (refTo record)), notFound]
  | .update => [("200", answerWith "Updated" (refTo record)), notFound, invalid]
  | .delete => [("204", bareAnswer "Deleted"), notFound]

def operationObject (resource : ResourceSpec) (operation : Operation) : Json :=
  object ([("tags", .texts [resource.name]), ("summary", .text (summaryOf resource.name operation))]
    ++ (parametersOf resource operation).toList.map (fun p => ("parameters", p))
    ++ (bodyOf resource operation).toList.map (fun b => ("requestBody", b))
    ++ [("responses", object (answersOf resource operation))])

def methodKey (operation : Operation) : String :=
  match Endpoint.methodOf operation with
  | .get => "get"
  | .post => "post"
  | .put => "put"
  | .delete => "delete"

def pathObject (resource : ResourceSpec) (operations : List Operation) : Json :=
  object (operations.map fun operation => (methodKey operation, operationObject resource operation))

def paths (resource : ResourceSpec) : List (String × Json) :=
  [(Naming.collectionPath resource.name, pathObject resource [.list, .create]),
    (Endpoint.itemPath resource.name, pathObject resource [.get, .update, .delete])]

end ApiScaffold.OpenApi
