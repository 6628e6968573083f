import ApiScaffold.Check.Fields
import ApiScaffold.Relations.Cycles

/-!
Checks that cross fields and resources: relations have to lead somewhere, indexes have to cover
columns under names of their own, and circles of relations are reported.
-/

namespace ApiScaffold.Check

/-! ### Relations -/

/-- The storage of the field that a relation leads to, or what is wrong with the relation. -/
def targetStorage (config : ApiConfig) (target : RelationTarget) : Except RelationFlaw Storage :=
  match config.resource? target.resource with
  | none => .error (.unknownResource target)
  | some resource =>
    if target.field = primaryKey then .ok .text
    else
      match resource.field? target.field with
      | none => .error (.unknownField target)
      | some field => .ok field.type.storage

def relationFlaw? (config : ApiConfig) (field : FieldSpec) : Option RelationFlaw :=
  match field.target? with
  | none => some .malformed
  | some target =>
    match targetStorage config target with
    | .error flaw => some flaw
    | .ok storage =>
      if field.type.storage = storage then none
      else some (.storedDifferently field.type.storage storage)

def relationOf (config : ApiConfig) (place : Place) (field : FieldSpec) : List Finding :=
  match field.relation with
  | none => []
  | some text => (relationFlaw? config field).toList.map (.relation place text)

def relations (config : ApiConfig) : List Finding := onFields (relationOf config) config

/-- Reports the circles of relations. -/
def circularRelations (config : ApiConfig) : List Finding :=
  (relationGraph config).cycles.map .circularRelation

/-! ### Indexes -/

/-- An index that has claimed a name. -/
structure IndexClaim where
  name : String
  owner : String
  fields : List String
  deriving DecidableEq, Repr

def columnNames (resource : ResourceSpec) : List String :=
  resource.fieldNames ++ resource.syntheticNames

def unknownIndexFields (resource : ResourceSpec) (index : IndexSpec) : List Finding :=
  (index.fields.filter fun name => !(columnNames resource).contains name).map fun name =>
    .unknownIndexField ⟨resource.name, name⟩

/-- Checks indexes of a resource in order, given those so far and the names that are claimed; gives
the findings and the names that are claimed then. -/
def indexesFrom (resource : ResourceSpec) (seen : List IndexSpec) (claims : List IndexClaim) :
    List IndexSpec → List Finding × List IndexClaim
  | [] => ([], claims)
  | index :: rest =>
    let unknown := unknownIndexFields resource index
    if seen.contains index then
      let (found, claims) := indexesFrom resource seen claims rest
      (unknown ++ .repeatedIndex resource.name index.fields :: found, claims)
    else
      let name := Naming.indexName resource.tableName index.fields index.unique
      match claims.find? fun claim => claim.name == name with
      | some claim =>
        let (found, claims) := indexesFrom resource (index :: seen) claims rest
        (unknown
          ++ .indexNameTaken resource.name index.fields name claim.owner claim.fields :: found, claims)
      | none =>
        let claim : IndexClaim := ⟨name, resource.name, index.fields⟩
        let (found, claims) := indexesFrom resource (index :: seen) (claim :: claims) rest
        (unknown ++ found, claims)

/-- Checks the indexes of resources in order, given the names that are claimed. -/
def resourceIndexesFrom (claims : List IndexClaim) : List ResourceSpec → List Finding
  | [] => []
  | resource :: rest =>
    let (found, claims) := indexesFrom resource [] claims resource.indexes
    found ++ resourceIndexesFrom claims rest

def indexes (config : ApiConfig) : List Finding := resourceIndexesFrom [] config.resources

end ApiScaffold.Check
