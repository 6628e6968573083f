import ApiScaffold.Config.Query
import ApiScaffold.Keyed
import ApiScaffold.Schema.Model

/-!
The four models of a resource: full records, bodies of create and update requests, and parameters of
list queries.
-/

namespace ApiScaffold.Schema

/-- How many records a page has unless asked otherwise, and at most. -/
def defaultPageSize : Int := 10

/-- How many records a page has at most. -/
def maxPageSize : Int := 100

/-- The mappings of fields by name; of fields of one name the last one counts. -/
abbrev Mappings := List (String × FieldMapping)

/-- Resolves the fields of a resource. -/
def mappings (resource : ResourceSpec) : Except MappingFault Mappings :=
  (resource.fields.mapM fun field => (mapField field).map (field.name, ·)).map Keyed.ofList

def annotationIn (mappings : Mappings) (name : String) : Annotation :=
  ((mappings.lookup name).map FieldMapping.typing).getD (.named "str")

def constraintsIn (mappings : Mappings) (name : String) : List Constraint :=
  ((mappings.lookup name).map FieldMapping.constraints).getD []

/-- The attribute of a field. A required one has no default; any other is optional and defaults to
the given scalar. -/
def attributeOf (mappings : Mappings) (field : FieldSpec) (default : Option Scalar) : Attribute :=
  let typing := annotationIn mappings field.name
  let constraints := constraintsIn mappings field.name
  let description := someText field.description
  let isPlain := constraints.isEmpty && description.isNone
  match default with
  | none =>
    ⟨field.name, typing, if isPlain then .unset else .field none constraints description⟩
  | some value =>
    ⟨field.name, .optional typing,
      if isPlain then .plain value else .field (some value) constraints description⟩

/-- The attribute of a field in records and create requests. -/
def declaredAttribute (mappings : Mappings) (field : FieldSpec) : Attribute :=
  attributeOf mappings field (if field.required then none else some field.default)

def updateAttribute (mappings : Mappings) (field : FieldSpec) : Attribute :=
  attributeOf mappings field (some .null)

def recordModel (resource : ResourceSpec) (mappings : Mappings) : Model where
  name := (Naming.schemaNames resource.name).record
  doc := s!"Full record of the {Text.quoted resource.name} resource."
  settings := some "from_attributes=True, populate_by_name=True"
  attributes :=
    ⟨primaryKey, .named "UUID", .unset⟩
      :: resource.storedFields.map (declaredAttribute mappings)
      ++ resource.timestamps.names.map fun name => ⟨name, .named "datetime", .unset⟩

def createModel (resource : ResourceSpec) (mappings : Mappings) : Model where
  name := (Naming.schemaNames resource.name).create
  doc := s!"Request body for creating a {Text.quoted resource.name} record."
  settings := some "extra=\"forbid\""
  attributes := resource.clientFields.map (declaredAttribute mappings)

def updateModel (resource : ResourceSpec) (mappings : Mappings) : Model where
  name := (Naming.schemaNames resource.name).update
  doc := s!"Request body for updating a {Text.quoted resource.name} record. All attributes optional."
  settings := some "extra=\"forbid\""
  attributes := resource.clientFields.map (updateAttribute mappings)

def queryAttributes : List Attribute := [
  ⟨"limit", .named "int",
    .field (some (.number (.int defaultPageSize))) [.atLeast (.int 1), .atMost (.int maxPageSize)] none⟩,
  ⟨"offset", .named "int", .field (some (.number (.int 0))) [.atLeast (.int 0)] none⟩,
  ⟨"orderBy", .optional (.named "str"), .plain .null⟩,
  ⟨"orderDirection", .choice ["asc", "desc"], .plain (.text "asc")⟩,
  ⟨"search", .optional (.named "str"), .plain .null⟩]

/-- The annotation of a filter: booleans and choices keep theirs, all else is text. -/
def filterTyping (mappings : Mappings) (field : FieldSpec) : Annotation :=
  if field.type = .boolean then .named "bool"
  else if field.type = .choice then annotationIn mappings field.name
  else .named "str"

def queryModel (resource : ResourceSpec) (mappings : Mappings) : Model where
  name := (Naming.schemaNames resource.name).query
  doc := s!"Query parameters for listing {Text.quoted resource.name} records."
  settings := none
  attributes := queryAttributes ++ resource.queryFilters.map fun field =>
    ⟨field.name, .optional (filterTyping mappings field), .plain .null⟩

def models (resource : ResourceSpec) (mappings : Mappings) : List Model :=
  [recordModel resource mappings, createModel resource mappings, updateModel resource mappings,
    queryModel resource mappings]

def moduleImports (resource : ResourceSpec) (mappings : Mappings) : Imports :=
  let always : Imports :=
    [("pydantic", ["BaseModel", "ConfigDict", "Field"]), ("typing", ["Literal", "Optional"]),
      ("uuid", ["UUID"])]
  let times : Imports := if resource.timestamps.names.isEmpty then [] else [("datetime", ["datetime"])]
  Imports.mergeAll (always :: times :: mappings.map fun entry => entry.2.importBlock)

end ApiScaffold.Schema
