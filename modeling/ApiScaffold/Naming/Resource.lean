import ApiScaffold.Naming.Plural

/-!
Names derived from the name of a resource: its class, module, table, routes, schemas and indexes.
-/

namespace ApiScaffold.Naming

def className (resource : String) : String := pascalCase resource

def moduleName (resource : String) : String := snakeCase resource

def tableName (resource : String) : String := snakeCase (plural resource)

def collectionPath (resource : String) : String := "/" ++ kebabCase (plural resource)

def schemaPath (resource : String) : String := s!"schemas/{moduleName resource}.py"

/-- The four schemas of a resource: a full record, the bodies of create and update requests, and
the parameters of a list query. -/
structure SchemaNames where
  record : String
  create : String
  update : String
  query : String
  deriving DecidableEq, Repr

def schemaNames (resource : String) : SchemaNames :=
  let base := className resource
  ⟨base, "Create" ++ base, "Update" ++ base, base ++ "Query"⟩

namespace SchemaNames

/-- The names in the order in which a module exports them. -/
def toList (names : SchemaNames) : List String :=
  [names.record, names.create, names.update, names.query]

end SchemaNames

def indexName (table : String) (fields : List String) (unique : Bool) : String :=
  let mark := if unique then "uidx" else "idx"
  s!"{mark}_{table}_" ++ String.intercalate "_" fields

end ApiScaffold.Naming
