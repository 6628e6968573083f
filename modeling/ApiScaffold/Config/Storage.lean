import ApiScaffold.Config.FieldType

/-!
How the types of fields are stored in tables.
-/

namespace ApiScaffold

/-- The type of a column. -/
inductive Storage where
  | text
  | integer
  | real
  deriving DecidableEq, Repr

def Storage.name : Storage → String
  | text => "TEXT"
  | integer => "INTEGER"
  | real => "REAL"

def FieldType.storage : FieldType → Storage
  | .integer | .boolean => .integer
  | .number => .real
  | _ => .text

end ApiScaffold
