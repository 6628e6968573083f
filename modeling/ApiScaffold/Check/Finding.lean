import ApiScaffold.Config.Basic
import ApiScaffold.Config.Storage
import ApiScaffold.Report.Issue

/-!
What the checks of a configuration can find. A finding is a cause; its level, its code, its words and
its context follow from it.
-/

namespace ApiScaffold.Check

/-- A field and the resource it belongs to. -/
structure Place where
  resource : String
  field : String
  deriving DecidableEq, Repr

/-- What is wrong with a relation. -/
inductive RelationFlaw where
  | malformed
  | unknownResource (target : RelationTarget)
  | unknownField (target : RelationTarget)
  | storedDifferently (own target : Storage)
  deriving DecidableEq, Repr

/-- A finding of a check. -/
inductive Finding where
  | repeatedResource (name : String)
  | badResourceName (name : String)
  | repeatedTable (first name table : String)
  | reservedTable (name table : String)
  | repeatedField (place : Place)
  | badFieldName (place : Place)
  | managedField (place : Place)
  | reservedField (place : Place)
  | shadowedFilter (place : Place)
  | choicesMissing (place : Place)
  | choicesRepeated (place : Place) (choices : List String)
  | choicesIgnored (place : Place) (type : FieldType)
  | relation (place : Place) (relation : String) (flaw : RelationFlaw)
  | circularRelation (cycle : List String)
  | unknownIndexField (place : Place)
  | repeatedIndex (resource : String) (fields : List String)
  | indexNameTaken (resource : String) (fields : List String) (name owner : String)
      (ownerFields : List String)
  | boundsNotFinite (place : Place) (bounds : List Number)
  | boundsIgnored (place : Place) (type : FieldType)
  | boundsReversed (place : Place) (lower upper : Number)
  | badLengthBound (place : Place) (bound : Number)
  | defaultNotChosen (place : Place) (default : Scalar)
  | defaultUnfit (place : Place) (default : Scalar) (type : FieldType)
  deriving DecidableEq, Repr

def commaSeparated (items : List String) : String := String.intercalate ", " items

namespace RelationFlaw

/-- Only a difference in storage leaves a relation usable. -/
def level : RelationFlaw → Level
  | storedDifferently .. => .warning
  | _ => .error

def code : RelationFlaw → String
  | malformed => "INVALID_RELATION_FORMAT"
  | unknownResource _ => "UNKNOWN_RELATION_RESOURCE"
  | unknownField _ => "UNKNOWN_RELATION_FIELD"
  | storedDifferently .. => "RELATION_TYPE_MISMATCH"

def message (place : Place) (relation : String) : RelationFlaw → String
  | malformed => s!"Invalid relation format '{relation}' in field '{place.field}'"
  | unknownResource target =>
    s!"Target resource '{target.resource}' not found for relation '{relation}'"
  | unknownField target =>
    s!"Target field '{target.field}' not found in resource '{target.resource}' for relation '{relation}'"
  | storedDifferently own target =>
    s!"Field '{place.field}' in resource '{place.resource}' is stored as {own.name} but references '{relation}' stored as {target.name}."

end RelationFlaw

namespace Finding

def level : Finding → Level
  | repeatedResource _ | badResourceName _ | repeatedTable .. | repeatedField _ | badFieldName _
  | choicesMissing _ | unknownIndexField _ | indexNameTaken .. | boundsNotFinite ..
  | boundsReversed .. | badLengthBound .. | defaultNotChosen .. | defaultUnfit .. => .error
  | .relation _ _ flaw => flaw.level
  | reservedTable .. | managedField _ | reservedField _ | shadowedFilter _ | choicesRepeated ..
  | choicesIgnored .. | circularRelation _ | repeatedIndex .. | boundsIgnored .. => .warning

/-- Whether a finding makes a configuration unusable. -/
def isError (f : Finding) : Bool := f.level == .error

def code : Finding → String
  | repeatedResource _ => "DUPLICATE_RESOURCE_NAME"
  | badResourceName _ => "INVALID_RESOURCE_NAME"
  | repeatedTable .. => "DUPLICATE_TABLE_NAME"
  | reservedTable .. => "TABLE_NAME_SQL_RESERVED"
  | repeatedField _ => "DUPLICATE_FIELD_NAME"
  | badFieldName _ => "INVALID_FIELD_NAME"
  | managedField _ => "SERVER_MANAGED_FIELD"
  | reservedField _ => "FIELD_NAME_SQL_RESERVED"
  | shadowedFilter _ => "QUERY_PARAMETER_SHADOWED"
  | choicesMissing _ => "ENUM_VALUES_MISSING"
  | choicesRepeated .. => "DUPLICATE_ENUM_VALUE"
  | choicesIgnored .. => "ENUM_VALUES_IGNORED"
  | .relation _ _ flaw => flaw.code
  | circularRelation _ => "CIRCULAR_RELATION"
  | unknownIndexField _ => "UNKNOWN_INDEX_FIELD"
  | repeatedIndex .. => "DUPLICATE_INDEX"
  | indexNameTaken .. => "INDEX_NAME_CONFLICT"
  | boundsNotFinite .. => "INVALID_BOUNDS"
  | boundsIgnored .. => "BOUNDS_IGNORED"
  | boundsReversed .. => "INVALID_BOUNDS"
  | badLengthBound .. => "INVALID_LENGTH_BOUND"
  | defaultNotChosen .. => "INVALID_DEFAULT"
  | defaultUnfit .. => "INVALID_DEFAULT"

def message : Finding → String
  | repeatedResource name => s!"Duplicate resource name: {name}"
  | badResourceName name => s!"Resource name '{name}' is not a valid identifier."
  | repeatedTable first name table =>
    s!"Resources '{first}' and '{name}' both map to table '{table}'."
  | reservedTable name table =>
    s!"Table name '{table}' of resource '{name}' is a SQL reserved word and will be quoted."
  | repeatedField ⟨resource, field⟩ =>
    s!"Duplicate field name '{field}' in resource '{resource}'"
  | badFieldName ⟨resource, field⟩ =>
    s!"Field name '{field}' in resource '{resource}' is not a valid identifier."
  | managedField ⟨resource, field⟩ =>
    s!"Field '{field}' in resource '{resource}' shadows a server-managed attribute and is left out of create/update rules."
  | reservedField ⟨resource, field⟩ =>
    s!"Field name '{field}' in resource '{resource}' is a SQL reserved word and will be quoted."
  | shadowedFilter ⟨resource, field⟩ =>
    s!"Field '{field}' in resource '{resource}' collides with the '{field}' query parameter; no list filter is generated for it."
  | choicesMissing ⟨resource, field⟩ =>
    s!"Field '{field}' in resource '{resource}' must have enum values"
  | choicesRepeated ⟨resource, field⟩ choices =>
    s!"Field '{field}' in resource '{resource}' repeats enum value(s): {commaSeparated choices}."
  | choicesIgnored ⟨resource, field⟩ type =>
    s!"Field '{field}' in resource '{resource}' is of type '{type.name}'; its enum values are ignored."
  | .relation place text flaw => flaw.message place text
  | circularRelation cycle =>
    "Circular relation chain detected: " ++ String.intercalate " -> " cycle ++ "."
  | unknownIndexField ⟨resource, field⟩ =>
    s!"Index references non-existent field '{field}' in resource '{resource}'"
  | repeatedIndex resource fields =>
    s!"Resource '{resource}' declares the index on ({commaSeparated fields}) more than once."
  | indexNameTaken resource fields name owner ownerFields =>
    s!"Index on ({commaSeparated fields}) in resource '{resource}' would be named '{name}', which the index on ({commaSeparated ownerFields}) in resource '{owner}' already uses."
  | boundsNotFinite ⟨resource, field⟩ bounds =>
    s!"Field '{field}' in resource '{resource}' needs finite min/max, got {commaSeparated (bounds.map Number.text)}."
  | boundsIgnored ⟨resource, field⟩ type =>
    s!"Field '{field}' in resource '{resource}' is of type '{type.name}'; min/max are ignored."
  | boundsReversed ⟨resource, field⟩ lower upper =>
    s!"Field '{field}' in resource '{resource}' has min ({lower.text}) greater than max ({upper.text})."
  | badLengthBound ⟨resource, field⟩ bound =>
    s!"Field '{field}' in resource '{resource}' needs non-negative whole-number length bounds, got {bound.text}."
  | defaultNotChosen ⟨resource, field⟩ default =>
    s!"Default value {default.toValue.inspect} of field '{field}' in resource '{resource}' is not one of its enum values."
  | defaultUnfit ⟨resource, field⟩ default type =>
    s!"Default value {default.toValue.inspect} of field '{field}' in resource '{resource}' is not a valid {type.name}."

def placeContext (place : Place) : List (String × Value) :=
  [("resource", .text place.resource), ("field", .text place.field)]

def context : Finding → List (String × Value)
  | repeatedResource name | badResourceName name => [("resource", .text name)]
  | repeatedTable _ name table | reservedTable name table =>
    [("resource", .text name), ("table", .text table)]
  | repeatedField place | badFieldName place | managedField place | reservedField place
  | shadowedFilter place | choicesMissing place | choicesRepeated place _
  | choicesIgnored place _ | unknownIndexField place | boundsNotFinite place _
  | boundsIgnored place _ | boundsReversed place _ _ | badLengthBound place _ => placeContext place
  | .relation place text _ => placeContext place ++ [("relation", .text text)]
  | circularRelation cycle => [("cycle", .list (cycle.map .text))]
  | repeatedIndex resource fields =>
    [("resource", .text resource), ("fields", .list (fields.map .text))]
  | indexNameTaken resource _ name _ _ => [("resource", .text resource), ("index", .text name)]
  | defaultNotChosen place default | defaultUnfit place default _ =>
    placeContext place ++ [("default", default.toValue)]

def issue (f : Finding) : Issue := ⟨f.level, f.code, f.message, f.context⟩

end Finding

/-- Why a check cannot be finished: a number is too large to be compared as a double, or too long to
be written into a message. -/
inductive Fault where
  | numberTooLarge
  | numberTooLong
  deriving DecidableEq, Repr

def Fault.message : Fault → String
  | numberTooLarge => "int too large to convert to float"
  | numberTooLong => Number.tooLongMessage

end ApiScaffold.Check
