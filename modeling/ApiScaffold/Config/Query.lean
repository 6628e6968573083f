import ApiScaffold.Config.Basic

/-!
List queries of a resource: the parameters that every query has, and the fields it filters by.
-/

namespace ApiScaffold

def queryParameters : List String := ["limit", "offset", "orderBy", "orderDirection", "search"]

/-- The fields that a list query filters by, given the names that are taken: each name counts once. -/
def filtersFrom (taken : List String) : List FieldSpec → List FieldSpec
  | [] => []
  | field :: rest =>
    if field.isFilter && !taken.contains field.name then
      field :: filtersFrom (field.name :: taken) rest
    else filtersFrom taken rest

def ResourceSpec.queryFilters (resource : ResourceSpec) : List FieldSpec :=
  filtersFrom queryParameters resource.fields

end ApiScaffold
