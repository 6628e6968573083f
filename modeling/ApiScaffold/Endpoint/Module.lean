import ApiScaffold.Artifact.Basic
import ApiScaffold.Endpoint.Describe
import ApiScaffold.Schema.Module

/-!
The modules of endpoints: imports, constants and the handler of one operation. Handlers leave all
storage to a store that the host supplies.
-/

namespace ApiScaffold.Endpoint

open Schema (indent)

def indented (depth : Nat) (line : String) : String := String.join (List.replicate depth indent) ++ line

/-! ### Imports -/

def schemaNames (spec : EndpointSpec) : List String :=
  (spec.requestSchema.toList ++ spec.responseSchema.toList).filter (!·.isEmpty)

def usesTime (spec : EndpointSpec) : Bool :=
  (spec.operation == .create || spec.operation == .update)
    && (spec.setsCreatedAt || spec.setsUpdatedAt)

def packageImports (spec : EndpointSpec) : Imports :=
  let single : Bool := spec.operation != .create && spec.operation != .list
  let bodies : Bool := spec.operation != .get && spec.operation != .delete
  [("fastapi", if single then ["Depends", "HTTPException", "Path"] else ["Depends"])]
    ++ (if usesTime spec then [("datetime", ["datetime", "timezone"])] else [])
    ++ (if bodies then [("typing", ["Any", "Dict"])] else [])
    ++ (if spec.operation = .create then [("uuid", ["uuid4"])] else [])

def relativeImports (spec : EndpointSpec) : Imports :=
  [("..store", ["Store", "get_store"])]
    ++ (if (schemaNames spec).isEmpty then []
      else [("..schemas." ++ Naming.moduleName spec.resource, schemaNames spec)])

/-- The lines of both import blocks, with an empty line between them. -/
def importLines (spec : EndpointSpec) : List String :=
  (packageImports spec).lines ++ "" :: (relativeImports spec).lines

/-! ### Handlers -/

def nameOr (schema : Option String) : String := schema.getD "None"

/-- The lines that open a handler with the given parameters. -/
def signature (spec : EndpointSpec) (parameters : List String) (result doc : String) : List String :=
  s!"async def {spec.handlerName}("
    :: (parameters ++ ["store: Store = Depends(get_store)"]).map (fun p => indented 1 (p ++ ","))
    ++ [s!") -> {result}:", indented 1 ("\"\"\"" ++ doc ++ "\"\"\"")]

def keyParameter (spec : EndpointSpec) : String := s!"{spec.primaryKey}: str = Path(...)"

/-- The lines that answer that there is no record. -/
def notFound (spec : EndpointSpec) (condition : String) : List String :=
  [indented 1 s!"if {condition}:", indented 2 "raise HTTPException(",
    indented 3 s!"status_code=404, detail=\"{spec.resource} not found.\"", indented 2 ")"]

def createHandler (spec : EndpointSpec) : List String :=
  let stamps :=
    (if usesTime spec then [indented 1 "now = datetime.now(timezone.utc).isoformat()"] else [])
      ++ (if spec.setsCreatedAt then [indented 1 "record[\"createdAt\"] = now"] else [])
      ++ (if spec.setsUpdatedAt then [indented 1 "record[\"updatedAt\"] = now"] else [])
  signature spec [s!"payload: {nameOr spec.requestSchema}"] (nameOr spec.responseSchema)
      s!"Create a new {spec.resource} record."
    ++ [indented 1 "record: Dict[str, Any] = payload.model_dump(mode=\"json\", exclude_unset=True)",
      indented 1 "record[PRIMARY_KEY] = str(uuid4())"]
    ++ stamps
    ++ [indented 1 "created = await store.create(TABLE_NAME, record)",
      indented 1 s!"return {nameOr spec.responseSchema}.model_validate(created)"]

def listConstants (spec : EndpointSpec) (filters : List String) : List String :=
  [s!"FILTER_FIELDS = {tupleLiteral filters}",
    s!"SEARCH_FIELDS = {tupleLiteral spec.searchFields}",
    s!"ORDER_BY_FIELDS = {tupleLiteral spec.orderByFields}"]

def listHandler (spec : EndpointSpec) : List String :=
  signature spec [s!"query: {nameOr spec.requestSchema} = Depends()"] "Dict[str, Any]"
      s!"List {spec.resource} records with pagination, filters and search."
    ++ [indented 1 "filters: Dict[str, Any] = \x7b", indented 2 "name: getattr(query, name)",
      indented 2 "for name in FILTER_FIELDS", indented 2 "if getattr(query, name) is not None", indented 1 "\x7d",
      indented 1 "order_by = query.orderBy if query.orderBy in ORDER_BY_FIELDS else None",
      indented 1 "rows, total = await store.list(", indented 2 "TABLE_NAME,", indented 2 "filters=filters,",
      indented 2 "search=query.search,", indented 2 "search_fields=SEARCH_FIELDS,", indented 2 "order_by=order_by,",
      indented 2 "order_direction=query.orderDirection,", indented 2 "limit=query.limit,",
      indented 2 "offset=query.offset,", indented 1 ")", indented 1 "return \x7b",
      indented 2 s!"\"data\": [{nameOr spec.responseSchema}.model_validate(row) for row in rows],",
      indented 2 "\"total\": total,", indented 2 "\"limit\": query.limit,", indented 2 "\"offset\": query.offset,",
      indented 1 "\x7d"]

def getHandler (spec : EndpointSpec) : List String :=
  signature spec [keyParameter spec] (nameOr spec.responseSchema)
      s!"Retrieve a single {spec.resource} record."
    ++ [indented 1 s!"record = await store.get(TABLE_NAME, PRIMARY_KEY, {spec.primaryKey})"]
    ++ notFound spec "record is None"
    ++ [indented 1 s!"return {nameOr spec.responseSchema}.model_validate(record)"]

def updateHandler (spec : EndpointSpec) : List String :=
  let stamp :=
    if spec.setsUpdatedAt then
      [indented 1 "changes[\"updatedAt\"] = datetime.now(timezone.utc).isoformat()"]
    else []
  signature spec [s!"payload: {nameOr spec.requestSchema}", keyParameter spec]
      (nameOr spec.responseSchema) s!"Update an existing {spec.resource} record."
    ++ [indented 1 "changes: Dict[str, Any] = payload.model_dump(mode=\"json\", exclude_unset=True)"]
    ++ stamp
    ++ [indented 1 s!"updated = await store.update(TABLE_NAME, PRIMARY_KEY, {spec.primaryKey}, changes)"]
    ++ notFound spec "updated is None"
    ++ [indented 1 s!"return {nameOr spec.responseSchema}.model_validate(updated)"]

def deleteHandler (spec : EndpointSpec) : List String :=
  signature spec [keyParameter spec] "None" s!"Delete a {spec.resource} record."
    ++ [indented 1 s!"deleted = await store.delete(TABLE_NAME, PRIMARY_KEY, {spec.primaryKey})"]
    ++ notFound spec "not deleted"

/-- The lines of the handler of an operation. -/
def handler (spec : EndpointSpec) : List String :=
  match spec.operation with
  | .create => createHandler spec
  | .list => listHandler spec
  | .get => getHandler spec
  | .update => updateHandler spec
  | .delete => deleteHandler spec

/-! ### Modules -/

def artifactName (spec : EndpointSpec) : String :=
  let className := Naming.className spec.resource
  spec.operation.label ++ (if spec.operation = .list then Naming.plural className else className)

def constants (spec : EndpointSpec) (filters : List String) : List String :=
  [s!"TABLE_NAME = \"{spec.tableName}\"", s!"PRIMARY_KEY = \"{spec.primaryKey}\""]
    ++ (if spec.operation = .list then listConstants spec filters else [])

/-- The text of the module of an endpoint; the list query filters by the given fields. -/
def moduleText (spec : EndpointSpec) (filters : List String) : String :=
  Text.joinLines
    (Schema.header s!"{artifactName spec} endpoint: {spec.method.name} {spec.path}"
      ++ importLines spec ++ "" :: constants spec filters ++ ["", ""] ++ handler spec ++ [""])

def artifact (resource : ResourceSpec) (operation : Operation) : Artifact :=
  let spec := describe resource operation
  { name := artifactName spec
    content := moduleText spec (resource.queryFilters.map FieldSpec.name)
    path := some s!"endpoints/{spec.moduleName}.py"
    detail := .endpoint { spec with imports := importLines spec } }

/-- The endpoint artifacts of a configuration: five for each resource. -/
def artifacts (config : ApiConfig) : List Artifact :=
  config.resources.flatMap fun resource => Operation.all.map (artifact resource)

end ApiScaffold.Endpoint
