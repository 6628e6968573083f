import ApiScaffold.Check.Finding
import ApiScaffold.Config.Query
import ApiScaffold.Naming.Identifier
import ApiScaffold.Text.Case

/-!
Checks of the names of resources and fields: repeated and malformed names, names that share a table,
and names that collide with what is generated.
-/

namespace ApiScaffold.Check

/-- Words of queries that are reported when a table or column has them for its name. -/
def reservedWords : List String := [
  "select", "insert", "update", "delete", "drop", "create", "alter", "table", "column", "index",
  "from", "where", "join", "inner", "outer", "left", "right", "on", "and", "or", "not", "null",
  "true", "false", "in", "between", "like", "is", "as", "order", "by", "group", "having", "limit",
  "offset", "union", "all", "distinct", "case", "when", "then", "else", "end", "exists", "primary",
  "foreign", "key", "references", "constraint", "check", "default", "unique", "cascade", "set",
  "values", "into", "begin", "commit", "rollback", "transaction", "trigger", "view", "with",
  "recursive"]

/-- Whether a name is one of those words in any case. -/
def isReserved (name : String) : Bool := reservedWords.contains (Text.lower name)

/-- Checks names of resources in order, given the names and the tables with their owners so far. -/
def resourceNamesFrom (seen : List String) (tables : List (String × String)) :
    List String → List Finding
  | [] => []
  | name :: rest =>
    if seen.contains name then .repeatedResource name :: resourceNamesFrom seen tables rest
    else if !Naming.isIdentifier name then
      .badResourceName name :: resourceNamesFrom (name :: seen) tables rest
    else
      let table := Naming.tableName name
      let reserved := if isReserved table then [.reservedTable name table] else []
      match tables.lookup table with
      | some first =>
        .repeatedTable first name table :: reserved ++ resourceNamesFrom (name :: seen) tables rest
      | none => reserved ++ resourceNamesFrom (name :: seen) ((table, name) :: tables) rest

def resourceNames (config : ApiConfig) : List Finding :=
  resourceNamesFrom [] [] config.resourceNames

/-- Whether a name can be an attribute of a record; a leading underscore would make it private. -/
def isFieldName (name : String) : Bool :=
  Naming.isIdentifier name && name.toList.head? != some '_'

/-- The findings about a well-formed name that occurs for the first time. -/
def collisions (place : Place) (field : FieldSpec) : List Finding :=
  (if serverManaged.contains field.name then [.managedField place] else [])
    ++ (if isReserved field.name then [.reservedField place] else [])
    ++ (if queryParameters.contains field.name && field.isFilter then [.shadowedFilter place] else [])

/-- Checks names of fields in order, given the names so far. -/
def fieldNamesFrom (resource : String) (seen : List String) : List FieldSpec → List Finding
  | [] => []
  | field :: rest =>
    let place : Place := ⟨resource, field.name⟩
    if seen.contains field.name then .repeatedField place :: fieldNamesFrom resource seen rest
    else if !isFieldName field.name then
      .badFieldName place :: fieldNamesFrom resource (field.name :: seen) rest
    else collisions place field ++ fieldNamesFrom resource (field.name :: seen) rest

/-- Checks the names of fields, each resource for itself. -/
def fieldNames (config : ApiConfig) : List Finding :=
  config.resources.flatMap fun resource => fieldNamesFrom resource.name [] resource.fields

end ApiScaffold.Check
