/-!
The closed set of types a field can have, with the names they go by in configurations.
-/

namespace ApiScaffold

/-- The type of a field. -/
inductive FieldType where
  | string
  | text
  | integer
  | number
  | boolean
  | uuid
  | email
  | url
  | datetime
  | date
  | json
  | choice
  deriving DecidableEq, Repr

namespace FieldType

/-- Every type, in the order in which they are listed. -/
def all : List FieldType :=
  [string, text, integer, number, boolean, uuid, email, url, datetime, date, json, choice]

def name : FieldType → String
  | string => "string"
  | text => "text"
  | integer => "integer"
  | number => "number"
  | boolean => "boolean"
  | uuid => "uuid"
  | email => "email"
  | url => "url"
  | datetime => "datetime"
  | date => "date"
  | json => "json"
  | choice => "enum"

def ofName? (s : String) : Option FieldType := all.find? fun type => type.name == s

theorem mem_all (type : FieldType) : type ∈ all := by cases type <;> decide

theorem ofName?_name (type : FieldType) : ofName? type.name = some type := by
  cases type <;> decide

end FieldType

end ApiScaffold
