import ApiScaffold.Config.Storage
import ApiScaffold.Config.Basic
import ApiScaffold.Document.Display
import ApiScaffold.Json
import ApiScaffold.Schema.Annotation

/-!
One table for all views of a field: each type has its storage, its annotation and its description in
the API document.
-/

namespace ApiScaffold.Schema

/-- What the bounds of a type measure. -/
inductive BoundKind where
  | length
  | value
  deriving DecidableEq, Repr

def BoundKind.name : BoundKind → String
  | length => "length"
  | value => "numeric"

def datePattern : String := "^\\d\x7b4\x7d-\\d\x7b2\x7d-\\d\x7b2\x7d$"

/-- What is fixed about a type. The annotation of a choice has its texts filled in for a field. -/
structure TypeEntry where
  typing : Annotation
  imports : List (String × String) := []
  bounds : Option BoundKind := none
  format : Option String := none
  apiType : String := "string"
  pattern : Option String := none

def typeEntry : FieldType → TypeEntry
  | .string | .text => { typing := .named "str", bounds := some .length }
  | .integer => { typing := .named "int", bounds := some .value, apiType := "integer" }
  | .number => { typing := .named "float", bounds := some .value, apiType := "number" }
  | .boolean => { typing := .named "bool", apiType := "boolean" }
  | .uuid => { typing := .named "UUID", imports := [("uuid", "UUID")], format := some "uuid" }
  | .email =>
    { typing := .named "EmailStr", imports := [("pydantic", "EmailStr")], format := some "email" }
  | .url =>
    { typing := .named "AnyUrl", imports := [("pydantic", "AnyUrl")], format := some "uri" }
  | .datetime =>
    { typing := .named "datetime"
      imports := [("datetime", "datetime")]
      format := some "date-time" }
  | .date => { typing := .named "str", format := some "date", pattern := some datePattern }
  | .json =>
    { typing := .dictionary "str" "Any"
      imports := [("typing", "Any"), ("typing", "Dict")]
      apiType := "object" }
  | .choice => { typing := .named "Literal", imports := [("typing", "Literal")] }

/-- The members that describe a type in the API document. -/
def TypeEntry.apiSchema (entry : TypeEntry) : List (String × Json) :=
  ("type", .text entry.apiType) :: (entry.format.map fun f => ("format", .text f)).toList

/-- The words for a value that is no type, possibly of a named field. -/
def unsupportedType (type : Value) (field : Option String) : String :=
  let place := match someText field with
    | some name => s!" for field '{name}'"
    | none => ""
  s!"Unsupported field type '{type.display}'{place}."

end ApiScaffold.Schema
