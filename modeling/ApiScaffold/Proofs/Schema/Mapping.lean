import Mathlib
import ApiScaffold.Proofs.Keyed
import ApiScaffold.Proofs.Outcome
import ApiScaffold.Schema.Resource

/-! What a resolved field says. Its annotation never admits nothing by itself, and its description in
the API document names a default exactly if one is declared. -/

namespace ApiScaffold

namespace Json

/-- The members of an object. -/
def members : Json → List (String × Json)
  | .object entries => entries
  | _ => []

/-- The member of a name. -/
def member? (json : Json) (name : String) : Option Json := json.members.lookup name

/-- Whether there is a member of a name. -/
def hasMember (json : Json) (name : String) : Bool := (json.member? name).isSome

end Json

namespace Schema

theorem mapField_eq_ok {field : FieldSpec} {mapping : FieldMapping}
    (h : mapField field = .ok mapping) :
    mapping.storage = field.type.storage ∧ mapping.typing = annotationOf field ∧
      ∃ bounds, boundConstraints field = .ok bounds ∧ mapping.apiSchema = apiSchemaOf field bounds := by
  unfold mapField at h
  split at h
  · cases h
  · obtain ⟨bounds, hbounds, hmapping⟩ := Outcome.bind_eq_ok.mp h
    obtain rfl := Except.ok.inj hmapping
    exact ⟨rfl, rfl, bounds, hbounds, rfl⟩

/-! ### Constraints -/

theorem value_of_mem_constraintOf {make : Int → Constraint} (hmake : ∀ n, (make n).value = .number (.int n))
    {bound : Option Number} {constraints : List Constraint} (h : constraintOf make bound = .ok constraints)
    {c : Constraint} (hc : c ∈ constraints) :
    ∃ n ∈ bound, ∃ length, lengthOf n = .ok length ∧ c.value = .number (.int length) := by
  cases bound with
  | none =>
      obtain rfl := Except.ok.inj h
      exact absurd hc List.not_mem_nil
  | some n =>
      obtain ⟨length, hlength, rfl⟩ := Outcome.map_eq_ok.mp h
      rw [List.mem_singleton.mp hc, hmake]
      exact ⟨n, rfl, length, hlength, rfl⟩

/-- A constraint states a bound as it is declared, or the length that the bound is. -/
theorem value_of_mem_boundConstraints {field : FieldSpec} {constraints : List Constraint}
    (h : boundConstraints field = .ok constraints) {c : Constraint} (hc : c ∈ constraints) :
    ∃ bound ∈ field.bounds, c.value = .number bound ∨
      ∃ length, lengthOf bound = .ok length ∧ c.value = .number (.int length) := by
  simp only [FieldSpec.bounds, List.mem_append, Option.mem_toList]
  rw [boundConstraints] at h
  split at h
  · obtain rfl := Except.ok.inj h
    exact absurd hc List.not_mem_nil
  · obtain rfl := Except.ok.inj h
    rcases List.mem_append.mp hc with hlower | hupper
    · obtain ⟨bound, hbound, rfl⟩ := List.mem_map.mp hlower
      exact ⟨bound, Or.inl (Option.mem_toList.mp hbound), Or.inl rfl⟩
    · obtain ⟨bound, hbound, rfl⟩ := List.mem_map.mp hupper
      exact ⟨bound, Or.inr (Option.mem_toList.mp hbound), Or.inl rfl⟩
  · obtain ⟨lower, hlower, h⟩ := Outcome.bind_eq_ok.mp h
    obtain ⟨upper, hupper, h⟩ := Outcome.bind_eq_ok.mp h
    obtain rfl := Except.ok.inj h
    rcases List.mem_append.mp hc with hmem | hmem
    · obtain ⟨bound, hbound, hlength⟩ := value_of_mem_constraintOf (fun _ => rfl) hlower hmem
      exact ⟨bound, Or.inl hbound, Or.inr hlength⟩
    · obtain ⟨bound, hbound, hlength⟩ := value_of_mem_constraintOf (fun _ => rfl) hupper hmem
      exact ⟨bound, Or.inr hbound, Or.inr hlength⟩

/-- The constraints of a field are its bounds and the pattern of its type. -/
theorem mapField_constraints_eq {field : FieldSpec} {mapping : FieldMapping}
    (h : mapField field = .ok mapping) :
    ∃ bounds, boundConstraints field = .ok bounds ∧
      mapping.constraints = bounds ++ (typeEntry field.type).pattern.toList.map .pattern := by
  unfold mapField at h
  split at h
  · cases h
  · obtain ⟨bounds, hbounds, hmapping⟩ := Outcome.bind_eq_ok.mp h
    obtain rfl := Except.ok.inj hmapping
    exact ⟨bounds, hbounds, rfl⟩

/-! ### Annotations -/

theorem annotationOf_isOptional (field : FieldSpec) : (annotationOf field).isOptional = false := by
  rw [annotationOf]
  split
  · rfl
  · cases field.type <;> rfl

/-! ### Defaults in the API document -/

theorem key_of_mem_apiSchema {type : FieldType} {member : String × Json}
    (h : member ∈ (typeEntry type).apiSchema) : member.1 ∈ ["type", "format"] := by
  have hkey : member.1 ∈ (typeEntry type).apiSchema.map (·.1) := List.mem_map_of_mem h
  rw [TypeEntry.apiSchema, List.map_cons, List.mem_cons] at hkey
  rcases hkey with htype | hformat
  · simp [htype]
  · cases hcase : (typeEntry type).format with
    | none => simp [hcase] at hformat
    | some format => simpa [hcase] using Or.inr hformat

theorem key_ne_default_of_apiMember? {constraint : Constraint} {member : String × Json}
    (h : constraint.apiMember? = some member) : member.1 ≠ "default" := by
  cases constraint <;> cases h <;> simp

/-- The description of a field gives the default that is declared. -/
theorem member?_default (field : FieldSpec) (bounds : List Constraint) :
    (Json.object (apiSchemaOf field bounds)).member? "default" = field.declaredDefault.map scalarJson := by
  have hfront : ((typeEntry field.type).apiSchema
      ++ (if field.type = FieldType.choice then [("enum", Json.texts field.choiceList)] else [])
      ++ bounds.filterMap Constraint.apiMember?).lookup "default" = none := by
    apply lookup_eq_none_of_not_mem
    intro hmem
    obtain ⟨member, hmember, hname⟩ := List.mem_map.mp hmem
    simp only [List.mem_append, List.mem_filterMap] at hmember
    rcases hmember with (htype | hchoice) | ⟨constraint, -, hconstraint⟩
    · have hkey := key_of_mem_apiSchema htype
      rw [hname] at hkey
      simp at hkey
    · split at hchoice
      · rw [List.mem_singleton.mp hchoice] at hname
        simp at hname
      · exact absurd hchoice List.not_mem_nil
    · exact key_ne_default_of_apiMember? hconstraint hname
  have hbehind : ((someText field.description).map fun d => ("description", Json.text d)).toList.lookup
      "default" = none := by
    cases someText field.description <;> rfl
  rw [Json.member?, Json.members, apiSchemaOf, List.lookup_append, List.lookup_append, hfront, hbehind,
    Option.none_or, Option.or_none]
  cases field.declaredDefault <;> rfl

/-- The description of a field names a default exactly if one is declared. -/
theorem hasMember_default (field : FieldSpec) (bounds : List Constraint) :
    (Json.object (apiSchemaOf field bounds)).hasMember "default" = field.hasDefault := by
  rw [Json.hasMember, member?_default, Option.isSome_map, FieldSpec.hasDefault]

/-! ### Fields of a resource -/

section Mappings

variable {resource : ResourceSpec} {resolved : Mappings}

theorem exists_mappings
    (hmapped : ∀ field ∈ resource.fields, ∃ mapping, mapField field = .ok mapping) :
    ∃ resolved, mappings resource = .ok resolved := by
  have heach : ∀ field ∈ resource.fields, ∃ entry,
      (mapField field).map (field.name, ·) = .ok entry := by
    intro field hfield
    obtain ⟨mapping, hmapping⟩ := hmapped field hfield
    exact ⟨(field.name, mapping), by rw [hmapping]; rfl⟩
  obtain ⟨entries, hentries⟩ := Outcome.exists_mapM_eq_ok heach
  exact ⟨Keyed.ofList entries, by rw [mappings, hentries]; rfl⟩

/-- Where the names of fields differ, each field is found under its name. -/
theorem lookup_mappings (hnodup : resource.fieldNames.Nodup)
    (h : mappings resource = .ok resolved) {field : FieldSpec} (hfield : field ∈ resource.fields) :
    ∃ mapping, resolved.lookup field.name = some mapping ∧ mapField field = .ok mapping := by
  obtain ⟨entries, hentries, rfl⟩ := Outcome.map_eq_ok.mp h
  have hnames : entries.map (·.1) = resource.fieldNames := by
    apply Outcome.mapM_map_eq hentries
    intro field _ entry hentry
    obtain ⟨mapping, -, rfl⟩ := Outcome.map_eq_ok.mp hentry
    rfl
  rw [Keyed.ofList_of_nodup (hnames ▸ hnodup)]
  obtain ⟨entry, hmem, hentry⟩ := Outcome.exists_of_mem_mapM hentries hfield
  obtain ⟨mapping, hmapping, rfl⟩ := Outcome.map_eq_ok.mp hentry
  exact ⟨mapping, lookup_of_mem (hnames ▸ hnodup) hmem, hmapping⟩

theorem annotationIn_eq (hnodup : resource.fieldNames.Nodup) (h : mappings resource = .ok resolved)
    {field : FieldSpec} (hfield : field ∈ resource.fields) :
    annotationIn resolved field.name = annotationOf field := by
  obtain ⟨mapping, hlookup, hmapping⟩ := lookup_mappings hnodup h hfield
  rw [annotationIn, hlookup, Option.map_some, Option.getD_some, (mapField_eq_ok hmapping).2.1]

/-- An attribute of a record or a create request admits nothing exactly if its field is not required. -/
theorem declaredAttribute_isOptional (hnodup : resource.fieldNames.Nodup)
    (h : mappings resource = .ok resolved) {field : FieldSpec} (hfield : field ∈ resource.fields) :
    (declaredAttribute resolved field).typing.isOptional = !field.required := by
  rw [declaredAttribute]
  cases field.required with
  | true =>
      change (annotationIn resolved field.name).isOptional = false
      rw [annotationIn_eq hnodup h hfield, annotationOf_isOptional]
  | false => rfl

theorem declaredAttribute_name (field : FieldSpec) :
    (declaredAttribute resolved field).name = field.name := by
  rw [declaredAttribute]
  cases field.required <;> rfl

end Mappings

end Schema

end ApiScaffold
