import ApiScaffold.Config.Basic
import ApiScaffold.Shape.Reader
import ApiScaffold.Shape.Scalar

/-!
The shape of a configuration: which parts it has, and how each is read.
-/

namespace ApiScaffold.Shape

open Reader

def fieldType (v : Value) : Checked FieldType :=
  let unknown : Checked FieldType := .reject (.notAType (FieldType.all.map FieldType.name))
  match wording v with
  | .text s => (FieldType.ofName? s).elim unknown .sound
  | _ => unknown

def field : Value → Checked FieldSpec :=
  object "FieldSpec" <|
    FieldSpec.mk <$> required "name" nonEmptyText
      <*> required "type" fieldType
      <*> optional ["required"] false flag
      <*> optional ["unique"] false flag
      <*> optional ["searchable"] false flag
      <*> optional ["min", "min_value"] none (nullable bound)
      <*> optional ["max", "max_value"] none (nullable bound)
      <*> optional ["enum", "enum_values"] none (nullable (list 0 anyText))
      <*> optional ["relation"] none (nullable anyText)
      <*> optional ["default"] none (fun v => some <$> scalar v)
      <*> optional ["description"] none (nullable anyText)

def index : Value → Checked IndexSpec :=
  object "IndexSpec" <|
    IndexSpec.mk <$> required "fields" (list 1 anyText) <*> optional ["unique"] false flag

def timestamps : Value → Checked TimestampPolicy :=
  object "TimestampPolicy" <|
    TimestampPolicy.mk <$> optional ["createdAt", "created_at"] true flag
      <*> optional ["updatedAt", "updated_at"] true flag

def resource : Value → Checked ResourceSpec :=
  object "ResourceSpec" <|
    ResourceSpec.mk <$> required "name" nonEmptyText
      <*> optional ["description"] none (nullable anyText)
      <*> required "fields" (list 1 field)
      <*> optional ["indexes"] [] (list 0 index)
      <*> optional ["timestamps"] {} timestamps

def database : Value → Checked DatabaseSpec :=
  object "DatabaseSpec" <|
    DatabaseSpec.mk <$> required "name" nonEmptyText <*> optional ["binding"] "DB" nonEmptyText

/-- Reads a configuration. -/
def config : Value → Checked ApiConfig :=
  object "ApiConfig" <|
    ApiConfig.mk <$> required "name" nonEmptyText
      <*> optional ["version"] none textOrNumber
      <*> optional ["description"] none (nullable anyText)
      <*> optional ["database"] none (nullable database)
      <*> required "resources" (list 1 resource)

end ApiScaffold.Shape
