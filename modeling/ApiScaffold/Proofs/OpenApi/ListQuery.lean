import Mathlib
import ApiScaffold.OpenApi.Path
import ApiScaffold.Proofs.Config.Query
import ApiScaffold.Proofs.Endpoint.Constants
import ApiScaffold.Proofs.Schema.Views

/-! List queries in three views: the model of the parameters, the operation of the API document, and the handler
that asks the model for the filters that its module names. All three filter by the same fields, and the model and
the document agree on what a filter may be. -/

namespace ApiScaffold

/-- What the values of a filter are. -/
inductive FilterKind where
  | boolean
  | choice (texts : List String)
  | text
  deriving DecidableEq, Repr

/-- The kind of a filter that may be left out, read from its annotation. -/
def Schema.Annotation.filterKind? : Schema.Annotation → Option FilterKind
  | .optional (.named name) =>
    if name = "bool" then some .boolean else if name = "str" then some .text else none
  | .optional (.choice texts) => some (.choice texts)
  | _ => none

/-- The kind of a filter, read from its schema. -/
def Json.filterKind? (schema : Json) : Option FilterKind :=
  match schema.member? "type", schema.member? "enum" with
  | some (.text type), none =>
    if type = "boolean" then some .boolean else if type = "string" then some .text else none
  | some (.text type), some texts => if type = "string" then texts.textItems?.map .choice else none
  | _, _ => none

/-- The name and the schema of a query parameter. -/
def Json.queryParameter? (parameter : Json) : Option (String × Json) :=
  match parameter.member? "in", parameter.member? "name", parameter.member? "schema" with
  | some (.text place), some (.text name), some schema => if place = "query" then some (name, schema) else none
  | _, _, _ => none

/-- The query parameters of an operation, if all its parameters are such. -/
def Json.queryParameters? (operation : Json) : Option (List (String × Json)) :=
  match operation.member? "parameters" with
  | some (.array parameters) => parameters.mapM Json.queryParameter?
  | _ => none

/-- What the values of the filter by a field are. -/
def FieldSpec.filterKind (field : FieldSpec) : FilterKind :=
  if field.type = .boolean then .boolean
  else if field.type = .choice then .choice field.choiceList
  else .text

/-! ### Views -/

section Views

variable {resource : ResourceSpec} {resolved : Schema.Mappings} {field : FieldSpec}

theorem Schema.filterKind?_filterTyping (hnodup : resource.fieldNames.Nodup)
    (h : mappings resource = .ok resolved) (hfield : field ∈ resource.fields) :
    ( Annotation.optional (filterTyping resolved field)).filterKind? = some field.filterKind := by
  rw [filterTyping, FieldSpec.filterKind]
  by_cases hboolean : field.type = .boolean
  · rw [if_pos hboolean, if_pos hboolean]
    rfl
  · by_cases hchoice : field.type = .choice
    · rw [if_neg hboolean, if_neg hboolean, if_pos hchoice, if_pos hchoice, annotationIn_eq hnodup h hfield,
        annotationOf, if_pos hchoice]
      rfl
    · rw [if_neg hboolean, if_neg hboolean, if_neg hchoice, if_neg hchoice]
      rfl

theorem OpenApi.filterKind?_filterSchema (field : FieldSpec) :
    (filterSchema field).filterKind? = some field.filterKind := by
  rw [filterSchema, FieldSpec.filterKind]
  by_cases hboolean : field.type = .boolean
  · rw [if_pos hboolean, if_pos hboolean]
    rfl
  · by_cases hchoice : field.type = .choice
    · have htexts : (Json.texts field.choiceList).textItems?.map FilterKind.choice =
          some (.choice field.choiceList) := by
        rw [Json.textItems?_texts, Option.map_some]
      rw [if_neg hboolean, if_neg hboolean, if_pos hchoice, if_pos hchoice]
      exact htexts
    · rw [if_neg hboolean, if_neg hboolean, if_neg hchoice, if_neg hchoice]
      rfl

/-- The parameters of the list operation are read back as they were written. -/
theorem OpenApi.queryParameters?_list (resource : ResourceSpec) :
    (operationObject resource .list).queryParameters? = some (listParameters resource) := by
  have hparameters : (operationObject resource .list).member? "parameters" =
      some (.array ((listParameters resource).map fun p => queryParameter p.1 p.2)) := rfl
  have hread : ∀ entries : List (String × Json),
      (entries.map fun p => queryParameter p.1 p.2).mapM Json.queryParameter? = some entries := by
    intro entries
    induction entries with
    | nil => rfl
    | cons entry rest ih =>
        have hentry : (queryParameter entry.1 entry.2).queryParameter? = some entry := rfl
        rw [List.map_cons, List.mapM_cons, hentry, ih]
        rfl
  rw [Json.queryParameters?, hparameters]
  exact hread _

end Views

/-- The views of a list query agree: what the model takes, what the document tells and what the handler asks for
are the fixed parameters and then the filters, each once, and a filter has one kind in the model and in the
document. -/
structure SameQuery (model : Schema.Model) (parameters : List (String × Json)) (filters : List String) :
    Prop where
  attributes : model.attributes.map Schema.Attribute.name = queryParameters ++ filters
  documented : parameters.map Prod.fst = queryParameters ++ filters
  nodup : (queryParameters ++ filters).Nodup
  kinds : ∀ a ∈ model.attributes, ∀ parameter ∈ parameters, a.name = parameter.1 → a.name ∈ filters →
    ∃ kind, a.typing.filterKind? = some kind ∧ parameter.2.filterKind? = some kind

section Agreement

variable {resource : ResourceSpec} {resolved : Schema.Mappings}

theorem Schema.queryModel_names (resource : ResourceSpec) (resolved : Mappings) :
    (queryModel resource resolved).attributes.map Attribute.name =
      queryParameters ++ resource.queryFilters.map FieldSpec.name := by
  rw [queryModel, List.map_append, List.map_map]
  rfl

theorem OpenApi.listParameters_names (resource : ResourceSpec) :
    (listParameters resource).map Prod.fst = queryParameters ++ resource.queryFilters.map FieldSpec.name := by
  rw [listParameters, List.map_append, List.map_map]
  rfl

/-- What has the name of a filter in one of the views was made for a filter. -/
theorem mem_filters_of_name {α : Type} {name : α → String} {fixed : List α} {ofField : FieldSpec → α} {item : α}
    (hfixed : fixed.map name = queryParameters)
    (hitem : item ∈ fixed ++ resource.queryFilters.map ofField)
    (hname : name item ∈ resource.queryFilters.map FieldSpec.name) :
    ∃ field ∈ resource.queryFilters, ofField field = item := by
  rcases List.mem_append.mp hitem with hmem | hmem
  · have htaken : name item ∈ queryParameters := hfixed ▸ List.mem_map_of_mem hmem
    exact absurd htaken (filtersFrom_fresh queryParameters resource.fields _ hname)
  · exact List.mem_map.mp hmem

theorem sameQuery (hnodup : resource.fieldNames.Nodup) (h : Schema.mappings resource = .ok resolved) :
    SameQuery (Schema.queryModel resource resolved) (OpenApi.listParameters resource)
      (resource.queryFilters.map FieldSpec.name) where
  attributes := Schema.queryModel_names resource resolved
  documented := OpenApi.listParameters_names resource
  nodup := resource.queryNames_nodup
  kinds := by
    intro a ha parameter hparameter hsame hfilter
    have hparameterName : parameter.1 ∈ resource.queryFilters.map FieldSpec.name := hsame ▸ hfilter
    obtain ⟨field, hfield, rfl⟩ := mem_filters_of_name rfl ha hfilter
    obtain ⟨other, hother, rfl⟩ := mem_filters_of_name rfl hparameter hparameterName
    have hdeclared : field ∈ resource.fields := filtersFrom_subset _ _ hfield
    -- Both were made for a field of this name, and there is only one.
    obtain rfl : field = other :=
      List.inj_on_of_nodup_map hnodup hdeclared (filtersFrom_subset _ _ hother) hsame
    exact ⟨field.filterKind, Schema.filterKind?_filterTyping hnodup h hdeclared,
      OpenApi.filterKind?_filterSchema field⟩

/-- **The list query has one meaning.** Where the names of the fields differ and all fields can be resolved, the
model of the parameters, the operation of the document and the constant of the handler name the same filters
behind the same fixed parameters. -/
theorem list_query_agrees (hnodup : resource.fieldNames.Nodup) (h : Schema.mappings resource = .ok resolved) :
    ∃ parameters filters, (OpenApi.operationObject resource .list).queryParameters? = some parameters ∧
      Endpoint.constant? Code.tuple? "FILTER_FIELDS" (Endpoint.moduleLines resource .list) = some filters ∧
      SameQuery (Schema.queryModel resource resolved) parameters filters :=
  ⟨OpenApi.listParameters resource, resource.queryFilters.map FieldSpec.name,
    OpenApi.queryParameters?_list resource, (Endpoint.constant?_listed resource).1, sameQuery hnodup h⟩

end Agreement

/-- Posts can be listed by their status. -/
theorem list_query_agrees_blog :
    Blog.post.fieldNames.Nodup ∧ ∃ resolved, Schema.mappings Blog.post = .ok resolved ∧
      ∃ parameters filters, (OpenApi.operationObject Blog.post .list).queryParameters? = some parameters ∧
        Endpoint.constant? Code.tuple? "FILTER_FIELDS" (Endpoint.moduleLines Blog.post .list) = some filters ∧
        SameQuery (Schema.queryModel Blog.post resolved) parameters filters := by
  have hnodup : Blog.post.fieldNames.Nodup := by decide
  have hok : (Schema.mappings Blog.post).isOk = true := by decide +kernel
  obtain ⟨resolved, hresolved⟩ := Outcome.exists_eq_ok hok
  exact ⟨hnodup, resolved, hresolved, list_query_agrees hnodup hresolved⟩

end ApiScaffold
