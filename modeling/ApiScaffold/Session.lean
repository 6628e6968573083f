import ApiScaffold.Bundle

/-!
Sessions: requests of any callers that share one sequence of tokens. Each request is answered with
migrations or with a fault, and the next one finds the sequence as it was left.
-/

namespace ApiScaffold.Session

/-- What a caller asks for. -/
inductive Request where
  | token
  | build (config : ApiConfig) (options : Bundle.Options)
  | migrations (config : ApiConfig)
  | createTable (tables : List Sql.Table) (resource : ResourceSpec) (table : Sql.Table)
  | createIndexes (resource : ResourceSpec) (table : Sql.Table)
  | rollback (resources : List ResourceSpec)
  | seed (resource : ResourceSpec) (records : Value)

/-- A step that takes tokens of the sequence, answers with migrations, or fails. -/
abbrev Answering := ExceptT BuildFault (StateM Sequence) (List Artifact)

/-- The answer to a request: the migrations that the caller gets. -/
def Request.answer : Request → Answering
  | .token => (fun _ => []) <$> Issuing.lift issueToken
  | .build config options => Bundle.migrations <$> ApiScaffold.build config options
  | .migrations config => Issuing.lift (Migration.migrations config)
  | .createTable tables resource table =>
    (fun artifact => [artifact]) <$> Issuing.lift (Migration.createTable tables resource table)
  | .createIndexes resource table =>
    (fun artifact => [artifact]) <$> Issuing.lift (Migration.createIndexes resource table)
  | .rollback resources => (fun artifact => [artifact]) <$> Issuing.lift (Migration.rollback resources)
  | .seed resource records =>
    (fun artifact => [artifact]) <$> Issuing.lift (Migration.seed resource records)

abbrev Reply := Except BuildFault (List Artifact)

/-- Serves requests one after another, whether or not they fail. -/
def serve : List Request → Sequence → List Reply × Sequence
  | [], sequence => ([], sequence)
  | request :: rest, sequence =>
    let (reply, between) := request.answer.run.run sequence
    let (replies, after) := serve rest between
    (reply :: replies, after)

/-- The migrations that a caller gets. -/
def Reply.artifacts : Reply → List Artifact
  | .ok artifacts => artifacts
  | .error _ => []

/-- The migrations that all callers get. -/
def returned (replies : List Reply) : List Artifact := replies.flatMap Reply.artifacts

end ApiScaffold.Session
