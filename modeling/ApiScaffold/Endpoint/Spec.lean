/-!
Endpoints: the operations on a resource, and the description of the handler that carries one out.
-/

namespace ApiScaffold

/-- An operation on a resource. -/
inductive Operation where
  | create
  | list
  | get
  | update
  | delete
  deriving DecidableEq, Repr

namespace Operation

/-- Every operation, in the order in which endpoints are made. -/
def all : List Operation := [create, list, get, update, delete]

theorem mem_all (operation : Operation) : operation ∈ all := by cases operation <;> decide

def name : Operation → String
  | create => "create"
  | list => "list"
  | get => "get"
  | update => "update"
  | delete => "delete"

def label : Operation → String
  | create => "Create"
  | list => "List"
  | get => "Get"
  | update => "Update"
  | delete => "Delete"

end Operation

/-- The method of a request. -/
inductive Method where
  | get
  | post
  | put
  | delete
  deriving DecidableEq, Repr

namespace Method

def all : List Method := [get, post, put, delete]

def name : Method → String
  | get => "GET"
  | post => "POST"
  | put => "PUT"
  | delete => "DELETE"

end Method

/-- The description of an endpoint. -/
structure EndpointSpec where
  operation : Operation
  method : Method
  path : String
  statusCode : Int := 200
  resource : String
  handlerName : String
  moduleName : String
  tableName : String
  primaryKey : String := "id"
  requestSchema : Option String := none
  responseSchema : Option String := none
  filterFields : List String := []
  searchFields : List String := []
  orderByFields : List String := []
  setsCreatedAt : Bool := false
  setsUpdatedAt : Bool := false
  imports : List String := []
  deriving DecidableEq, Repr

end ApiScaffold
