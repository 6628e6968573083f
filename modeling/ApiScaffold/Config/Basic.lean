import ApiScaffold.Config.FieldType
import ApiScaffold.Literal
import ApiScaffold.Naming.Resource

/-!
The configuration of an API: resources with their fields, indexes and timestamps.
-/

namespace ApiScaffold

/-- The field of another resource that a relation names. -/
structure RelationTarget where
  resource : String
  field : String
  deriving DecidableEq, Repr

/-- Reads the text of a relation: a resource and a field with one dot between them. -/
def RelationTarget.ofText? (text : String) : Option RelationTarget :=
  let resource := text.toList.takeWhile (· != '.')
  match text.toList.dropWhile (· != '.') with
  | [] => none
  | _ :: field =>
    if resource.isEmpty || field.isEmpty || field.contains '.' then none
    else some ⟨String.ofList resource, String.ofList field⟩

/-- A declared field of a resource. A default may be declared as null, which is not the same as none
being declared. -/
structure FieldSpec where
  name : String
  type : FieldType
  required : Bool := false
  unique : Bool := false
  searchable : Bool := false
  lower : Option Number := none
  upper : Option Number := none
  choices : Option (List String) := none
  relation : Option String := none
  declaredDefault : Option Scalar := none
  description : Option String := none
  deriving DecidableEq, Repr

/-- An optional text that is there and not empty. -/
def someText (text : Option String) : Option String := text.filter (!·.isEmpty)

namespace FieldSpec

def target? (field : FieldSpec) : Option RelationTarget :=
  field.relation.bind RelationTarget.ofText?

def hasDefault (field : FieldSpec) : Bool := field.declaredDefault.isSome

/-- The declared default, null if there is none. -/
def default (field : FieldSpec) : Scalar := field.declaredDefault.getD .null

/-- The declared choices; none and an empty list are the same. -/
def choiceList (field : FieldSpec) : List String := field.choices.getD []

/-- The lower and the upper bound, as far as they are declared. -/
def bounds (field : FieldSpec) : List Number := field.lower.toList ++ field.upper.toList

/-- Whether list queries can filter by the field itself. -/
def isFilter (field : FieldSpec) : Bool :=
  field.searchable || field.type == .boolean || field.type == .choice

def summary (field : FieldSpec) : String :=
  s!"<Field {field.name} {field.type.name}" ++ (if field.required then " required" else "") ++ ">"

end FieldSpec

/-- An index over fields of a resource. -/
structure IndexSpec where
  fields : List String
  unique : Bool := false
  deriving DecidableEq, Repr

/-- Which timestamps the records of a resource carry. -/
structure TimestampPolicy where
  createdAt : Bool := true
  updatedAt : Bool := true
  deriving DecidableEq, Repr

def TimestampPolicy.names (policy : TimestampPolicy) : List String :=
  (if policy.createdAt then ["createdAt"] else []) ++ (if policy.updatedAt then ["updatedAt"] else [])

def primaryKey : String := "id"

/-- The names that clients never write. -/
def serverManaged : List String := [primaryKey, "createdAt", "updatedAt"]

/-- A resource of an API. -/
structure ResourceSpec where
  name : String
  description : Option String := none
  fields : List FieldSpec
  indexes : List IndexSpec := []
  timestamps : TimestampPolicy := {}
  deriving DecidableEq, Repr

namespace ResourceSpec

def tableName (resource : ResourceSpec) : String := Naming.tableName resource.name

def className (resource : ResourceSpec) : String := Naming.className resource.name

def fieldNames (resource : ResourceSpec) : List String := resource.fields.map FieldSpec.name

def clientFields (resource : ResourceSpec) : List FieldSpec :=
  resource.fields.filter fun field => !serverManaged.contains field.name

/-- The names that stand for columns of their own: the key and the timestamps. -/
def syntheticNames (resource : ResourceSpec) : List String :=
  primaryKey :: resource.timestamps.names

/-- The fields that become columns as declared; the synthetic ones take precedence. -/
def storedFields (resource : ResourceSpec) : List FieldSpec :=
  resource.fields.filter fun field => !resource.syntheticNames.contains field.name

def field? (resource : ResourceSpec) (name : String) : Option FieldSpec :=
  resource.fields.find? fun field => field.name == name

def summary (resource : ResourceSpec) : String :=
  s!"<Resource {resource.name} ({resource.fields.length} fields)>"

end ResourceSpec

/-- The database that a deployment binds. -/
structure DatabaseSpec where
  name : String
  binding : String := "DB"
  deriving DecidableEq, Repr

/-- A whole configuration. -/
structure ApiConfig where
  name : String
  version : Option String := none
  description : Option String := none
  database : Option DatabaseSpec := none
  resources : List ResourceSpec
  deriving DecidableEq, Repr

namespace ApiConfig

def resourceNames (config : ApiConfig) : List String := config.resources.map ResourceSpec.name

def databaseName (config : ApiConfig) : String :=
  match config.database with
  | some database => database.name
  | none => config.name ++ "-db"

/-- The name the database is bound to. -/
def databaseBinding (config : ApiConfig) : String :=
  match config.database with
  | some database => database.binding
  | none => "DB"

/-- The version shown for an API, also for one that has none. -/
def shownVersion (config : ApiConfig) : String := (someText config.version).getD "1.0.0"

def resource? (config : ApiConfig) (name : String) : Option ResourceSpec :=
  config.resources.find? fun resource => resource.name == name

def summary (config : ApiConfig) : String :=
  s!"<ApiConfig {config.name} ({config.resources.length} resources)>"

end ApiConfig

end ApiScaffold
