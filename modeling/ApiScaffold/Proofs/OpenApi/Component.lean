import Mathlib
import ApiScaffold.OpenApi.Component
import ApiScaffold.Proofs.Migration.Table
import ApiScaffold.Proofs.Schema.Mapping

/-! The schemas that a resource has in the API document: which properties they have, which of them
have defaults, and which are required. -/

namespace ApiScaffold

namespace Json

/-- The items of an array of texts. -/
def textItems? : Json → Option (List String)
  | .array items => items.mapM fun
    | .text s => some s
    | _ => none
  | _ => none

theorem textItems?_texts (items : List String) : (texts items).textItems? = some items := by
  rw [texts, textItems?]
  induction items with
  | nil => rfl
  | cons item rest ih => rw [List.map_cons, List.mapM_cons, ih]; rfl

end Json

namespace OpenApi

/-- The properties of a component. -/
def propertiesOf (component : Json) : List (String × Json) :=
  ((component.member? "properties").map Json.members).getD []

/-- The names that a component requires; where nothing is said about it, none. -/
def requiredOf (component : Json) : Option (List String) :=
  match component.member? "required" with
  | some names => names.textItems?
  | none => some []

/-- The names of properties, and whether they have defaults. -/
def defaultsOf (component : Json) : List (String × Bool) :=
  (propertiesOf component).map fun property => (property.1, property.2.hasMember "default")

theorem defaultsOf_names (component : Json) :
    (defaultsOf component).map (·.1) = (propertiesOf component).map (·.1) := by
  rw [defaultsOf, List.map_map]
  rfl

/-! ### Properties -/

theorem exists_properties {fields : List FieldSpec}
    (hmapped : ∀ field ∈ fields, ∃ mapping, Schema.mapField field = .ok mapping) :
    ∃ members, properties fields = .ok members := by
  apply Outcome.exists_mapM_eq_ok
  intro field hfield
  obtain ⟨mapping, hmapping⟩ := hmapped field hfield
  exact ⟨(field.name, object mapping.apiSchema), by rw [hmapping]; rfl⟩

theorem properties_defaults {fields : List FieldSpec} {members : List (String × Json)}
    (h : properties fields = .ok members) :
    members.map (fun property => (property.1, property.2.hasMember "default")) =
      fields.map fun field => (field.name, field.hasDefault) := by
  apply Outcome.mapM_map_eq h
  intro field _ property hproperty
  obtain ⟨mapping, hmapping, rfl⟩ := Outcome.map_eq_ok.mp hproperty
  obtain ⟨-, -, bounds, -, hschema⟩ := Schema.mapField_eq_ok hmapping
  rw [hschema]
  exact congrArg (Prod.mk field.name) (Schema.hasMember_default field bounds)

theorem properties_names {fields : List FieldSpec} {members : List (String × Json)}
    (h : properties fields = .ok members) : members.map (·.1) = fields.map FieldSpec.name := by
  have hfirst := congrArg (List.map Prod.fst) (properties_defaults h)
  rw [List.map_map, List.map_map] at hfirst
  exact hfirst

section Resource

variable {resource : ResourceSpec}

/-! ### Records -/

theorem recordProperties_eq_ok (hnodup : resource.fieldNames.Nodup) {members : List (String × Json)}
    (h : recordProperties resource = .ok members) :
    members.map (fun property => (property.1, property.2.hasMember "default")) =
      resource.outline (primaryKey, false) (fun field => (field.name, field.hasDefault))
        fun name => (name, false) := by
  obtain ⟨declared, hdeclared, hmembers⟩ := Outcome.bind_eq_ok.mp h
  obtain rfl := Except.ok.inj hmembers
  have hnames : (((primaryKey, formatted "uuid") :: declared ++
      resource.timestamps.names.map fun name => (name, formatted "date-time")).map (·.1)) =
        resource.tableColumns := by
    rw [List.map_append, List.map_cons, properties_names hdeclared, List.map_map,
      ResourceSpec.tableColumns]
    exact congrArg _ (List.map_id _)
  rw [Keyed.ofList_of_nodup (hnames ▸ ResourceSpec.tableColumns_nodup hnodup), List.map_append,
    List.map_cons, properties_defaults hdeclared, List.map_map]
  rfl

/-- The component of full records: its properties and what it requires. -/
theorem recordComponent_eq_ok (hnodup : resource.fieldNames.Nodup) {component : Json}
    (h : recordComponent resource = .ok component) :
    defaultsOf component = resource.outline (primaryKey, false)
        (fun field => (field.name, field.hasDefault)) (fun name => (name, false)) ∧
      requiredOf component = some (recordRequired resource) := by
  obtain ⟨members, hmembers, hcomponent⟩ := Outcome.bind_eq_ok.mp h
  obtain rfl := Except.ok.inj hcomponent
  constructor
  · rw [← recordProperties_eq_ok hnodup hmembers]
    rfl
  · exact Json.textItems?_texts (recordRequired resource)

/-! ### Request bodies -/

/-- The component of create requests, given its properties. -/
def createComponent (resource : ResourceSpec) (body : List (String × Json)) : Json :=
  object ([("type", .text "object"), ("properties", object body)]
    ++ (if (requiredNames resource.clientFields).isEmpty then []
      else [("required", .texts (requiredNames resource.clientFields))]))

/-- The component of update requests, given its properties. -/
def updateComponent (body : List (String × Json)) : Json :=
  object [("type", .text "object"), ("properties", object body)]

theorem createComponent_views (body : List (String × Json)) :
    propertiesOf (createComponent resource body) = body ∧
      requiredOf (createComponent resource body) = some (requiredNames resource.clientFields) := by
  rw [createComponent]
  cases hrequired : requiredNames resource.clientFields with
  | nil => exact ⟨rfl, rfl⟩
  | cons first rest => exact ⟨rfl, Json.textItems?_texts (first :: rest)⟩

theorem updateComponent_properties (body : List (String × Json)) :
    propertiesOf (updateComponent body) = body := rfl

theorem bodyProperties_names (hnodup : resource.fieldNames.Nodup) {body : List (String × Json)}
    (h : bodyProperties resource = .ok body) :
    body.map (·.1) = resource.clientFields.map FieldSpec.name := by
  obtain ⟨members, hmembers, rfl⟩ := Outcome.map_eq_ok.mp h
  have hnames := properties_names hmembers
  have hclient : (resource.clientFields.map FieldSpec.name).Nodup :=
    hnodup.sublist (List.filter_sublist.map FieldSpec.name)
  rw [Keyed.ofList_of_nodup (hnames ▸ hclient), hnames]

/-! ### Components by name -/

theorem schemaNames_nodup (name : String) :
    [(Naming.schemaNames name).record, (Naming.schemaNames name).create,
      (Naming.schemaNames name).update].Nodup := by
  have hcreate : ∀ base : String, base ≠ "Create" ++ base := by
    intro base heq
    have hlength := congrArg String.length heq
    rw [String.length_append] at hlength
    have hword : "Create".length = 6 := rfl
    omega
  have hupdate : ∀ base : String, base ≠ "Update" ++ base := by
    intro base heq
    have hlength := congrArg String.length heq
    rw [String.length_append] at hlength
    have hword : "Update".length = 6 := rfl
    omega
  have hbodies : ∀ base : String, "Create" ++ base ≠ "Update" ++ base := by
    intro base heq
    exact absurd ((String.append_left_inj base).mp heq) (by decide)
  simp [Naming.schemaNames, hcreate, hupdate, hbodies]

/-- The components of a resource are there where its fields can be resolved. -/
theorem exists_components (hmapped : ∀ field ∈ resource.fields,
    ∃ mapping, Schema.mapField field = .ok mapping) :
    ∃ record body, recordComponent resource = .ok record ∧ bodyProperties resource = .ok body ∧
      components resource = .ok [
        ((Naming.schemaNames resource.name).record, record),
        ((Naming.schemaNames resource.name).create, createComponent resource body),
        ((Naming.schemaNames resource.name).update, updateComponent body)] := by
  obtain ⟨declared, hdeclared⟩ := exists_properties fun field hfield =>
    hmapped field (ResourceSpec.mem_storedFields.mp hfield).1
  obtain ⟨members, hmembers⟩ : ∃ members, properties resource.clientFields = .ok members :=
    exists_properties fun field hfield => hmapped field (List.mem_of_mem_filter hfield)
  have hrecord : ∃ record, recordComponent resource = .ok record := by
    unfold recordComponent recordProperties
    rw [hdeclared]
    exact ⟨_, rfl⟩
  have hbody : bodyProperties resource = .ok (Keyed.ofList members) := by
    rw [bodyProperties, hmembers]
    rfl
  obtain ⟨record, hrecord⟩ := hrecord
  refine ⟨record, Keyed.ofList members, hrecord, hbody, ?_⟩
  unfold components
  rw [hrecord, hbody]
  exact congrArg Except.ok (Keyed.ofList_of_nodup (schemaNames_nodup resource.name))

end Resource

end OpenApi

end ApiScaffold
