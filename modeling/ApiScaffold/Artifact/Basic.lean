import ApiScaffold.Config.Basic
import ApiScaffold.Digest.Sha256
import ApiScaffold.Endpoint.Spec
import ApiScaffold.Text.Blank
import ApiScaffold.Text.Lines

/-!
Artifacts: named texts with a place for them. The key of an artifact stays the same from run to run,
so that changes can be told.
-/

namespace ApiScaffold

/-- What a migration does. -/
inductive MigrationKind where
  | createTable
  | createIndexes
  | rollback
  | seed
  deriving DecidableEq, Repr

namespace MigrationKind

def all : List MigrationKind := [createTable, createIndexes, rollback, seed]

def name : MigrationKind → String
  | createTable => "create_table"
  | createIndexes => "create_indexes"
  | rollback => "rollback"
  | seed => "seed"

end MigrationKind

/-- What an artifact is. -/
inductive ArtifactDetail where
  | plain
  | schema (resource : String) (exports : List String)
  | endpoint (spec : EndpointSpec)
  | migration (kind : MigrationKind) (resource : Option String)
  deriving DecidableEq, Repr

/-- A named text. -/
structure Artifact where
  name : String
  content : String
  checksum : Option String := none
  path : Option String := none
  detail : ArtifactDetail := .plain
  deriving DecidableEq, Repr

namespace Artifact

def lineCount (a : Artifact) : Nat := Text.countLines a.content

/-- The path, or the name where there is none. -/
def place (a : Artifact) : String := (someText a.path).getD a.name

/-- What an artifact is known by. The name of a migration has a token in it that differs from run to
run, its resource and kind do not. -/
def key (a : Artifact) : String :=
  match a.detail with
  | .migration kind resource => "migrations/" ++ (someText resource).getD "*" ++ ":" ++ kind.name
  | _ => a.place

/-- The checksum, taken of the content where none is given. -/
def sum (a : Artifact) : String := (someText a.checksum).getD (Digest.checksum a.content)

def className (a : Artifact) : String :=
  match a.detail with
  | .plain => "GeneratedArtifact"
  | .schema .. => "SchemaArtifact"
  | .endpoint _ => "EndpointArtifact"
  | .migration .. => "MigrationArtifact"

def summary (a : Artifact) : String := s!"<{a.className} {a.name} ({a.lineCount} lines)>"

end Artifact

/-- Whether a content differs from the one that a checksum was taken of. -/
def hasChanged (content : String) (previous : Option String) : Bool :=
  match someText previous with
  | none => true
  | some previous => Digest.checksum content != Text.trim previous

end ApiScaffold
