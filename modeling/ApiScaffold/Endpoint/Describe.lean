import ApiScaffold.Config.Query
import ApiScaffold.Endpoint.Spec

/-!
The endpoints of a resource: one for each operation, with its path, its handler and its schemas.
-/

namespace ApiScaffold.Endpoint

def itemPath (resource : String) : String :=
  Naming.collectionPath resource ++ "/\x7b" ++ primaryKey ++ "\x7d"

/-- Whether a field is ordered by time. -/
def isOrderable (field : FieldSpec) : Bool := field.type == .datetime || field.type == .date

def isTypedFilter (field : FieldSpec) : Bool := field.type == .boolean || field.type == .choice

def methodOf : Operation → Method
  | .create => .post
  | .list | .get => .get
  | .update => .put
  | .delete => .delete

def pathOf (resource : String) : Operation → String
  | .create | .list => Naming.collectionPath resource
  | .get | .update | .delete => itemPath resource

/-- The status of a successful answer. -/
def statusOf : Operation → Int
  | .create => 201
  | .delete => 204
  | .list | .get | .update => 200

/-- The name of the handler of an operation, and of its module. -/
def handlerOf (resource : String) (operation : Operation) : String :=
  let base := Naming.moduleName resource
  let subject := if operation = .list then Naming.plural base else base
  operation.name ++ "_" ++ subject

def requestOf (resource : String) : Operation → Option String
  | .create => some (Naming.schemaNames resource).create
  | .list => some (Naming.schemaNames resource).query
  | .update => some (Naming.schemaNames resource).update
  | .get | .delete => none

/-- The schema of what an operation answers. -/
def responseOf (resource : String) : Operation → Option String
  | .delete => none
  | _ => some (Naming.schemaNames resource).record

/-- The names of fields, if the operation is a list query. -/
def listed (operation : Operation) (fields : List FieldSpec) : List String :=
  if operation = .list then fields.map FieldSpec.name else []

def describe (resource : ResourceSpec) (operation : Operation) : EndpointSpec where
  operation := operation
  method := methodOf operation
  path := pathOf resource.name operation
  statusCode := statusOf operation
  resource := resource.name
  handlerName := handlerOf resource.name operation
  moduleName := handlerOf resource.name operation
  tableName := resource.tableName
  primaryKey := primaryKey
  requestSchema := requestOf resource.name operation
  responseSchema := responseOf resource.name operation
  filterFields := listed operation (resource.queryFilters.filter isTypedFilter)
  searchFields := listed operation (resource.fields.filter FieldSpec.searchable)
  orderByFields := listed operation (resource.fields.filter isOrderable)
  setsCreatedAt := operation == .create && resource.timestamps.createdAt
  setsUpdatedAt := (operation == .create || operation == .update) && resource.timestamps.updatedAt

end ApiScaffold.Endpoint
