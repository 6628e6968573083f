import ApiScaffold.Endpoint.Module

/-!
The router module: one route for each endpoint, grouped by resource, and the application.
-/

namespace ApiScaffold.Router

open Schema (indent)

def routeLine (spec : EndpointSpec) : String :=
  let arguments :=
    [textLiteral spec.path, spec.handlerName, s!"methods=[{textLiteral spec.method.name}]"]
      ++ (if spec.statusCode = 200 then [] else [s!"status_code={spec.statusCode}"])
      ++ [s!"tags=[{textLiteral spec.resource}]"]
  "router.add_api_route(" ++ String.intercalate ", " arguments ++ ")"

/-- The lines of routes; each change of resource begins a group. -/
def routeLines (current : Option String) : List EndpointSpec → List String
  | [] => []
  | spec :: rest =>
    (if current = some spec.resource then [] else ["", s!"# {spec.resource}"])
      ++ routeLine spec :: routeLines (some spec.resource) rest

def handlerImports (specs : List EndpointSpec) : Imports :=
  Imports.mergeAll [specs.map fun spec => (".endpoints." ++ spec.moduleName, [spec.handlerName])]

def applicationLines (config : ApiConfig) : List String :=
  let deep := indent ++ indent
  ["def create_app() -> FastAPI:",
    indent ++ "\"\"\"Build the application with every generated route.\"\"\"",
    indent ++ "app = FastAPI(",
    s!"{deep}title={textLiteral config.name},",
    s!"{deep}version={textLiteral (config.shownVersion)},"]
    ++ (someText config.description).toList.map (fun d => s!"{deep}description={textLiteral d},")
    ++ [indent ++ ")", indent ++ "app.include_router(router)", indent ++ "return app", ""]

def moduleText (config : ApiConfig) (specs : List EndpointSpec) : String :=
  let packages : Imports := [("fastapi", ["APIRouter", "FastAPI"])]
  Text.joinLines
    (Schema.header s!"Route registration for API: {config.name}"
      ++ [packages.block, "", (handlerImports specs).block, "", "router = APIRouter()"]
      ++ routeLines none specs ++ ["", ""] ++ applicationLines config)

def artifact (config : ApiConfig) (specs : List EndpointSpec) : Artifact :=
  { name := "router", content := moduleText config specs, path := some "router.py" }

end ApiScaffold.Router
