import ApiScaffold.Imports
import ApiScaffold.Schema.TypeTable

/-!
The mapping of a field: its type resolved against its bounds, choices and default. All views of the
field are made from it.
-/

namespace ApiScaffold.Schema

/-- A constraint on the values of an attribute. -/
inductive Constraint where
  | minLength (n : Int)
  | maxLength (n : Int)
  | atLeast (bound : Number)
  | atMost (bound : Number)
  | pattern (text : String)
  deriving DecidableEq, Repr

namespace Constraint

def argument : Constraint → String
  | minLength _ => "min_length"
  | maxLength _ => "max_length"
  | atLeast _ => "ge"
  | atMost _ => "le"
  | pattern _ => "pattern"

def value : Constraint → Scalar
  | minLength n | maxLength n => .number (.int n)
  | atLeast bound | atMost bound => .number bound
  | pattern text => .text text

/-- The member that states a constraint in the API document; patterns are not stated there. -/
def apiMember? : Constraint → Option (String × Json)
  | minLength n => some ("minLength", .int n)
  | maxLength n => some ("maxLength", .int n)
  | atLeast bound => some ("minimum", .number bound)
  | atMost bound => some ("maximum", .number bound)
  | pattern _ => none

end Constraint

/-- A resolved field. -/
structure FieldMapping where
  name : String
  storage : Storage
  typing : Annotation
  constraints : List Constraint
  apiSchema : List (String × Json)
  imports : List (String × String)

/-- Why a field cannot be resolved. -/
inductive MappingFault where
  | choicesMissing (field : String)
  | bound (fault : Number.TruncationFault)
  deriving DecidableEq, Repr

def MappingFault.message : MappingFault → String
  | choicesMissing field => s!"Enum field '{field}' must have enum values."
  | bound .notANumber => "cannot convert float NaN to integer"
  | bound .infinite => "cannot convert float infinity to integer"

def lengthOf (bound : Number) : Except MappingFault Int := bound.truncate.mapError .bound

/-- A constraint made from a bound, if the bound is declared. -/
def constraintOf (make : Int → Constraint) : Option Number → Except MappingFault (List Constraint)
  | none => .ok []
  | some bound => (lengthOf bound).map fun n => [make n]

def boundConstraints (field : FieldSpec) : Except MappingFault (List Constraint) :=
  match (typeEntry field.type).bounds with
  | none => .ok []
  | some .value =>
    .ok (field.lower.toList.map .atLeast ++ field.upper.toList.map .atMost)
  | some .length => do
    let lower ← constraintOf .minLength field.lower
    let upper ← constraintOf .maxLength field.upper
    return lower ++ upper

/-- A scalar in the API document. -/
def scalarJson : Scalar → Json
  | .null => .null
  | .bool b => .bool b
  | .number n => .number n
  | .text s => .text s

def annotationOf (field : FieldSpec) : Annotation :=
  if field.type = .choice then .choice field.choiceList else (typeEntry field.type).typing

/-- The members that describe a field in the API document, given its bounds. -/
def apiSchemaOf (field : FieldSpec) (bounds : List Constraint) : List (String × Json) :=
  (typeEntry field.type).apiSchema
    ++ (if field.type = .choice then [("enum", .texts field.choiceList)] else [])
    ++ bounds.filterMap Constraint.apiMember?
    ++ (field.declaredDefault.map fun d => ("default", scalarJson d)).toList
    ++ ((someText field.description).map fun d => ("description", .text d)).toList

def mapField (field : FieldSpec) : Except MappingFault FieldMapping := do
  if field.type = .choice && field.choiceList.isEmpty then throw (.choicesMissing field.name)
  let entry := typeEntry field.type
  let bounds ← boundConstraints field
  return {
    name := field.name
    storage := field.type.storage
    typing := annotationOf field
    constraints := bounds ++ entry.pattern.toList.map .pattern
    apiSchema := apiSchemaOf field bounds
    imports := entry.imports }

def argumentText (name : String) (value : Scalar) : Except LiteralFault String :=
  value.literal.map fun text => name ++ "=" ++ text

def constraintArguments (constraints : List Constraint) : Except LiteralFault (List String) :=
  constraints.mapM fun c => argumentText c.argument c.value

namespace FieldMapping

def importBlock (mapping : FieldMapping) : Imports :=
  mapping.imports.foldl (fun block entry => block.add entry.1 [entry.2]) []

def arguments (mapping : FieldMapping) : Except LiteralFault String :=
  (constraintArguments mapping.constraints).map (String.intercalate ", ")

/-- The same with a default in front. -/
def argumentsWithDefault (mapping : FieldMapping) (default : Value) : Except LiteralFault String := do
  let first ← default.literal
  let others ← constraintArguments mapping.constraints
  return String.intercalate ", " (("default=" ++ first) :: others)

end FieldMapping

end ApiScaffold.Schema
