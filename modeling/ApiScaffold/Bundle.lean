import ApiScaffold.Check.Basic
import ApiScaffold.Migration.Script
import ApiScaffold.OpenApi.Document
import ApiScaffold.Router
import ApiScaffold.TypeExports

/-!
Everything that is generated for a configuration, and how two runs are compared.
-/

namespace ApiScaffold

/-- All artifacts of a run. -/
structure Bundle where
  apiName : String
  schemas : List Artifact
  endpoints : List Artifact
  migrations : List Artifact
  router : Artifact
  types : Artifact
  openApi : Option Artifact
  deriving Repr

namespace Bundle

def artifacts (bundle : Bundle) : List Artifact :=
  bundle.schemas ++ bundle.migrations ++ bundle.endpoints ++ [bundle.router, bundle.types]
    ++ bundle.openApi.toList

/-- The contents by path. -/
def fileMap (bundle : Bundle) : List (String × String) :=
  Keyed.ofList (bundle.artifacts.map fun artifact => (artifact.place, artifact.content))

def checksumMap (bundle : Bundle) : List (String × String) :=
  Keyed.ofList (bundle.artifacts.map fun artifact => (artifact.key, artifact.sum))

/-- The artifacts that are new or differ from a run with the given checksums. -/
def changed (bundle : Bundle) (previous : List (String × String)) : List Artifact :=
  bundle.artifacts.filter fun artifact => hasChanged artifact.content (previous.lookup artifact.key)

def lineCount (bundle : Bundle) : Nat :=
  bundle.artifacts.foldr (fun artifact total => artifact.lineCount + total) 0

def summary (bundle : Bundle) : String :=
  s!"<GenerationResult {bundle.apiName}: {bundle.schemas.length} schemas, {bundle.migrations.length} migrations, {bundle.endpoints.length} endpoints>"

/-- What to generate besides the rest. -/
structure Options where
  includeOpenApi : Bool := true
  serverUrl : Option String := none
  deriving DecidableEq, Repr

def endpointSpecs (endpoints : List Artifact) : List EndpointSpec :=
  endpoints.filterMap fun artifact =>
    match artifact.detail with
    | .endpoint spec => some spec
    | _ => none

/-- Generates all artifacts of a configuration. -/
def generate (config : ApiConfig) (options : Options) : Issuing Bundle := do
  let schemas ← Issuing.ofExcept (Schema.artifacts config)
  let migrations ← Migration.migrations config
  let endpoints := Endpoint.artifacts config
  let openApi ←
    if options.includeOpenApi then some <$> Issuing.ofExcept (OpenApi.artifact config options.serverUrl)
    else pure none
  return {
    apiName := config.name
    schemas := schemas
    endpoints := endpoints
    migrations := migrations
    router := Router.artifact config (endpointSpecs endpoints)
    types := TypeExports.artifact config schemas
    openApi := openApi }

end Bundle

/-- Why nothing is built. -/
inductive BuildFault where
  | invalid (messages : List String)
  | check (fault : Check.Fault)
  | generation (fault : GenerationFault)
  deriving DecidableEq, Repr

/-- Lets a step fail for the reasons of a build. -/
def Issuing.lift {α : Type} (step : Issuing α) : ExceptT BuildFault (StateM Sequence) α :=
  ExceptT.adapt .generation step

/-- Checks a configuration and generates all artifacts. A configuration with errors takes no tokens. -/
def build (config : ApiConfig) (options : Bundle.Options) :
    ExceptT BuildFault (StateM Sequence) Bundle :=
  match config.report with
  | .error fault => throw (.check fault)
  | .ok report =>
    if report.hasErrors then throw (.invalid report.errorMessages)
    else (Bundle.generate config options).lift

end ApiScaffold
