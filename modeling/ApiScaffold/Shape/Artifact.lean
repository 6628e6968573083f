import ApiScaffold.Artifact.Basic
import ApiScaffold.Shape.Reader
import ApiScaffold.Shape.Scalar

/-!
The shapes of artifacts and of endpoint descriptions.
-/

namespace ApiScaffold.Shape

open Reader

/-- Reads the description of an endpoint. -/
def endpoint : Value → Checked EndpointSpec :=
  object "EndpointSpec" <|
    EndpointSpec.mk <$> required "operation" (oneOf Operation.all Operation.name)
      <*> required "method" (oneOf Method.all Method.name)
      <*> required "path" anyText
      <*> optional ["status_code"] 200 integer
      <*> required "resource" anyText
      <*> required "handler_name" anyText
      <*> required "module_name" anyText
      <*> required "table_name" anyText
      <*> optional ["primary_key"] "id" anyText
      <*> optional ["request_schema"] none (nullable anyText)
      <*> optional ["response_schema"] none (nullable anyText)
      <*> optional ["filter_fields"] [] (list 0 anyText)
      <*> optional ["search_fields"] [] (list 0 anyText)
      <*> optional ["order_by_fields"] [] (list 0 anyText)
      <*> optional ["sets_created_at"] false flag
      <*> optional ["sets_updated_at"] false flag
      <*> optional ["imports"] [] (list 0 anyText)

/-- Reads the parts that come first in every artifact but a migration. -/
def artifactParts : Reader (ArtifactDetail → Artifact) :=
  Artifact.mk <$> required "name" nonEmptyText
    <*> required "content" anyText
    <*> optional ["checksum"] none (nullable anyText)
    <*> optional ["path"] none (nullable anyText)

/-- Reads an artifact without details. -/
def plainArtifact : Value → Checked Artifact :=
  object "GeneratedArtifact" <| artifactParts <*> pure .plain

def schemaArtifact : Value → Checked Artifact :=
  object "SchemaArtifact" <|
    artifactParts
      <*> (ArtifactDetail.schema <$> required "resource" anyText
        <*> optional ["type_exports"] [] (list 0 anyText))

def endpointArtifact : Value → Checked Artifact :=
  object "EndpointArtifact" <|
    artifactParts <*> (ArtifactDetail.endpoint <$> required "spec" endpoint)

/-- Reads a migration artifact, which always has a checksum of 64 digits. -/
def migrationArtifact : Value → Checked Artifact :=
  object "MigrationArtifact" <|
    Artifact.mk <$> required "name" nonEmptyText
      <*> required "content" anyText
      <*> required "checksum" (fun v => some <$> text 64 (some 64) v)
      <*> optional ["path"] none (nullable anyText)
      <*> (ArtifactDetail.migration <$> required "kind" (oneOf MigrationKind.all MigrationKind.name)
        <*> optional ["resource"] none (nullable anyText))

end ApiScaffold.Shape
