import Mathlib
import ApiScaffold.OpenApi.Document
import ApiScaffold.Proofs.Json
import ApiScaffold.Proofs.OpenApi.Component
import ApiScaffold.Proofs.Schema.Module

/-! The API document as a whole: what its components are made of, and that it can be written where the
defaults and bounds of the fields can. -/

namespace ApiScaffold.OpenApi

open Json

/-! ### Properties -/

section Properties

variable {resource : ResourceSpec} {fields : List FieldSpec} {members : List (String × Json)}
  {member : String × Json}

/-- A member is the description of a field under its name. -/
def Describes (fields : List FieldSpec) (member : String × Json) : Prop :=
  ∃ field ∈ fields, ∃ mapping, Schema.mapField field = .ok mapping ∧
    member = (field.name, object mapping.apiSchema)

theorem describes_of_mem_properties (h : properties fields = .ok members) (hmember : member ∈ members) :
    Describes fields member := by
  obtain ⟨field, hfield, hmade⟩ := Outcome.exists_of_mem_results h hmember
  obtain ⟨mapping, hmapping, rfl⟩ := Outcome.map_eq_ok.mp hmade
  exact ⟨field, hfield, mapping, hmapping, rfl⟩

theorem describes_of_mem_bodyProperties (h : bodyProperties resource = .ok members)
    (hmember : member ∈ members) : Describes resource.clientFields member := by
  obtain ⟨entries, hentries, rfl⟩ := Outcome.map_eq_ok.mp h
  exact describes_of_mem_properties hentries (Keyed.mem_of_mem_ofList hmember)

/-- The properties of a record are its stored fields, its key and its timestamps. -/
theorem describes_of_mem_recordProperties (h : recordProperties resource = .ok members)
    (hmember : member ∈ members) :
    Describes resource.storedFields member ∨
      member.1 ∈ resource.syntheticNames ∧ ∃ format, member.2 = formatted format := by
  obtain ⟨declared, hdeclared, hmembers⟩ := Outcome.bind_eq_ok.mp h
  obtain rfl := Except.ok.inj hmembers
  have hmem := Keyed.mem_of_mem_ofList hmember
  rw [List.cons_append, List.mem_cons, List.mem_append] at hmem
  rcases hmem with rfl | hfield | htime
  · exact Or.inr ⟨List.mem_cons_self, _, rfl⟩
  · exact Or.inl (describes_of_mem_properties hdeclared hfield)
  · obtain ⟨name, hname, rfl⟩ := List.mem_map.mp htime
    exact Or.inr ⟨List.mem_cons_of_mem _ hname, _, rfl⟩

end Properties

/-! ### Components -/

theorem components_eq_ok {resource : ResourceSpec} {made : List (String × Json)}
    (h : components resource = .ok made) :
    ∃ members body, recordProperties resource = .ok members ∧ bodyProperties resource = .ok body ∧
      made = [
        ((Naming.schemaNames resource.name).record,
          object ([("type", .text "object"), ("properties", object members),
            ("required", .texts (recordRequired resource))]
            ++ (someText resource.description).toList.map fun d => ("description", .text d))),
        ((Naming.schemaNames resource.name).create, createComponent resource body),
        ((Naming.schemaNames resource.name).update, updateComponent body)] := by
  obtain ⟨record, hrecord, h⟩ := Outcome.bind_eq_ok.mp h
  obtain ⟨body, hbody, h⟩ := Outcome.bind_eq_ok.mp h
  obtain ⟨members, hmembers, hcomponent⟩ := Outcome.bind_eq_ok.mp hrecord
  obtain rfl := Except.ok.inj hcomponent
  obtain rfl := Except.ok.inj h
  exact ⟨members, body, hmembers, hbody, Keyed.ofList_of_nodup (schemaNames_nodup resource.name)⟩

/-! ### Documents -/

/-- The document of a configuration, given its components. -/
def documentOf (config : ApiConfig) (serverUrl : Option String) (schemas : List (String × Json)) : Json :=
  object ([("openapi", .text formatVersion),
      ("info", object [("title", .text config.name), ("version", .text config.shownVersion),
        ("description", .text ((someText config.description).getD s!"CRUD API for {config.name}"))])]
    ++ (someText serverUrl).toList.map (fun url => ("servers", .array [object [("url", .text url)]]))
    ++ [("paths", object (Keyed.ofList (config.resources.flatMap paths))),
      ("components", object [("schemas", object (Keyed.ofList schemas))])])

variable {config : ApiConfig} {serverUrl : Option String}

theorem document_eq_ok {document : Json} :
    OpenApi.document config serverUrl = .ok document ↔
      ∃ schemas, config.resources.mapM components = .ok schemas ∧
        document = documentOf config serverUrl schemas.flatten := by
  unfold OpenApi.document
  rw [Outcome.bind_eq_ok]
  constructor
  · rintro ⟨schemas, hschemas, hdocument⟩
    exact ⟨schemas, hschemas, (Except.ok.inj hdocument).symm⟩
  · rintro ⟨schemas, hschemas, rfl⟩
    exact ⟨schemas, hschemas, rfl⟩

/-- The components of all resources are there where their fields can be resolved. -/
theorem exists_schemas (hmapped : ∀ resource ∈ config.resources, ∀ field ∈ resource.fields,
    ∃ mapping, Schema.mapField field = .ok mapping) :
    ∃ schemas, config.resources.mapM components = .ok schemas := by
  refine Outcome.exists_mapM_eq_ok fun resource hresource => ?_
  obtain ⟨record, body, -, -, hmade⟩ := exists_components (hmapped resource hresource)
  exact ⟨_, hmade⟩

/-- The artifact holds the document, if there is one and it can be written. -/
theorem artifact_eq_ok_iff {file : Artifact} :
    artifact config serverUrl = .ok file ↔
      ∃ document, OpenApi.document config serverUrl = .ok document ∧ document.hasText = true ∧
        file = { name := "openapi", content := document.indented ++ "\n", path := some "openapi.json" } := by
  unfold artifact
  rw [Outcome.bind_eq_ok]
  constructor
  · rintro ⟨document, hdocument, h⟩
    split at h
    · rename_i htext
      exact ⟨document, Outcome.mapError_eq_ok.mp hdocument, htext, (Except.ok.inj h).symm⟩
    · cases h
  · rintro ⟨document, hdocument, htext, rfl⟩
    exact ⟨document, Outcome.mapError_eq_ok.mpr hdocument, if_pos htext⟩

/-! ### Numbers -/

section Numbers

variable {kind : Number → Prop}

theorem apiMember?_content {c : Schema.Constraint} {member : String × Json}
    (h : c.apiMember? = some member) : member.2 = Schema.scalarJson c.value := by
  cases c <;> cases h <;> rfl

/-- The numbers that are stated of a field, its default and its bounds, are of some kind. -/
structure FieldNumbers (kind : Number → Prop) (field : FieldSpec) : Prop where
  default : ∀ n, field.declaredDefault = some (.number n) → kind n
  bounds : ∀ constraints, Schema.boundConstraints field = .ok constraints →
    ∀ c ∈ constraints, ∀ n, c.value = .number n → kind n

theorem allNumbers_scalarJson {s : Scalar} (h : ∀ n, s = .number n → kind n) :
    AllNumbers kind (Schema.scalarJson s) := by
  cases s with
  | number n => exact allNumbers_number.mpr (h n rfl)
  | _ => exact allNumbers_of_isEmpty rfl

/-- The description of a field has no numbers but its default and its bounds. -/
theorem allNumbers_apiSchemaOf {field : FieldSpec} {bounds : List Schema.Constraint}
    (hfield : FieldNumbers kind field) (hbounds : Schema.boundConstraints field = .ok bounds) :
    AllNumbers kind (object (Schema.apiSchemaOf field bounds)) := by
  have htype : ∀ member ∈ (Schema.typeEntry field.type).apiSchema, member.2.numbers.isEmpty = true := by
    cases field.type <;> decide
  rw [object, allNumbers_object, Schema.apiSchemaOf]
  simp only [List.forall_mem_append, List.mem_filterMap, Option.mem_toList]
  refine ⟨⟨⟨⟨fun member hmember => allNumbers_of_isEmpty (htype member hmember), ?_⟩, ?_⟩, ?_⟩, ?_⟩
  · split
    · rw [List.forall_mem_singleton]
      exact allNumbers_texts _
    · exact List.forall_mem_nil _
  · rintro member ⟨c, hc, hmember⟩
    rw [apiMember?_content hmember]
    exact allNumbers_scalarJson (hfield.bounds bounds hbounds c hc)
  · intro member hmember
    obtain ⟨default, hdeclared, rfl⟩ := Option.map_eq_some_iff.mp hmember
    refine allNumbers_scalarJson fun n hn => hfield.default n ?_
    rw [hdeclared, hn]
  · intro member hmember
    obtain ⟨text, -, rfl⟩ := Option.map_eq_some_iff.mp hmember
    exact allNumbers_text text

theorem allNumbers_of_describes {fields : List FieldSpec}
    (hfields : ∀ field ∈ fields, FieldNumbers kind field) {member : String × Json}
    (h : Describes fields member) : AllNumbers kind member.2 := by
  obtain ⟨field, hfield, mapping, hmapping, rfl⟩ := h
  obtain ⟨-, -, bounds, hbounds, hschema⟩ := Schema.mapField_eq_ok hmapping
  rw [hschema]
  exact allNumbers_apiSchemaOf (hfields field hfield) hbounds

theorem allNumbers_components {resource : ResourceSpec}
    (hfields : ∀ field ∈ resource.storedFields, FieldNumbers kind field) {made : List (String × Json)}
    (h : components resource = .ok made) : ∀ component ∈ made, AllNumbers kind component.2 := by
  obtain ⟨members, body, hmembers, hbody, rfl⟩ := components_eq_ok h
  have hrecord : ∀ member ∈ members, AllNumbers kind member.2 := by
    intro member hmember
    rcases describes_of_mem_recordProperties hmembers hmember with hfield | ⟨-, format, hformat⟩
    · exact allNumbers_of_describes hfields hfield
    · rw [hformat]
      exact allNumbers_of_isEmpty rfl
  have hclient : ∀ field ∈ resource.clientFields, FieldNumbers kind field := fun field hfield =>
    hfields field (resource.clientFields_subset hfield)
  have hbodies : ∀ member ∈ body, AllNumbers kind member.2 := fun member hmember =>
    allNumbers_of_describes hclient (describes_of_mem_bodyProperties hbody hmember)
  simp only [List.forall_mem_cons, List.not_mem_nil, false_implies, implies_true, and_true]
  refine ⟨?_, ?_, ?_⟩
  · cases someText resource.description <;> simpa [object] using hrecord
  · rw [createComponent]
    split <;> simpa [object] using hbodies
  · simpa [updateComponent, object] using hbodies

/-- The numbers of the parameters that every list query has. -/
def fixedNumbers : List Number := fixedParameters.flatMap fun parameter => parameter.2.numbers

/-- The numbers of the paths are those of the fixed parameters. -/
theorem allNumbers_operationObject (hfixed : ∀ n ∈ fixedNumbers, kind n) (resource : ResourceSpec)
    (operation : Operation) : AllNumbers kind (operationObject resource operation) := by
  have hfilters : ∀ field : FieldSpec, AllNumbers kind (filterSchema field) := by
    intro field
    rw [filterSchema]
    split
    · exact allNumbers_of_isEmpty rfl
    · split
      · simp [object]
      · exact allNumbers_of_isEmpty rfl
  have hlist : ∀ parameter ∈ listParameters resource, AllNumbers kind parameter.2 := by
    rw [listParameters, List.forall_mem_append, List.forall_mem_map]
    exact ⟨fun parameter hparameter n hn => hfixed n (List.mem_flatMap_of_mem hparameter hn),
      fun field _ => hfilters field⟩
  have hparameters : AllNumbers kind (.array ((listParameters resource).map fun p =>
      queryParameter p.1 p.2)) := by
    rw [allNumbers_array, List.forall_mem_map]
    intro parameter hparameter
    simpa [queryParameter, object] using hlist parameter hparameter
  cases operation with
  | list =>
      have hbody : bodyOf resource .list = none := rfl
      refine allNumbers_object.mpr (List.forall_mem_append.mpr ⟨?_, ?_⟩)
      · rw [parametersOf, hbody, Option.toList_some, Option.toList_none, List.map_nil,
          List.append_nil, List.map_singleton, List.forall_mem_append, List.forall_mem_singleton]
        refine ⟨?_, hparameters⟩
        simp
      · rw [List.forall_mem_singleton]
        exact allNumbers_of_isEmpty rfl
  | _ => exact allNumbers_of_isEmpty rfl

theorem allNumbers_paths (hfixed : ∀ n ∈ fixedNumbers, kind n) {resource : ResourceSpec}
    {path : String × Json} (h : path ∈ paths resource) : AllNumbers kind path.2 := by
  have hobject : ∀ operations, AllNumbers kind (pathObject resource operations) := by
    intro operations
    rw [pathObject, object, allNumbers_object, List.forall_mem_map]
    exact fun operation _ => allNumbers_operationObject hfixed resource operation
  simp only [paths, List.mem_cons, List.not_mem_nil, or_false] at h
  rcases h with rfl | rfl <;> exact hobject _

/-- What is known of the numbers of all stored fields and of the fixed parameters is known of all numbers in
the document. -/
theorem allNumbers_documentOf (hfixed : ∀ n ∈ fixedNumbers, kind n)
    (hfields : ∀ resource ∈ config.resources, ∀ field ∈ resource.storedFields, FieldNumbers kind field)
    {schemas : List (List (String × Json))} (h : config.resources.mapM components = .ok schemas) :
    AllNumbers kind (documentOf config serverUrl schemas.flatten) := by
  have hpaths : ∀ path ∈ Keyed.ofList (config.resources.flatMap paths), AllNumbers kind path.2 := by
    intro path hpath
    obtain ⟨resource, -, hmem⟩ := List.mem_flatMap.mp (Keyed.mem_of_mem_ofList hpath)
    exact allNumbers_paths hfixed hmem
  have hschemas : ∀ component ∈ Keyed.ofList schemas.flatten, AllNumbers kind component.2 := by
    intro component hcomponent
    obtain ⟨made, hmade, hmem⟩ := List.mem_flatten.mp (Keyed.mem_of_mem_ofList hcomponent)
    obtain ⟨resource, hresource, hof⟩ := Outcome.exists_of_mem_results h hmade
    exact allNumbers_components (hfields resource hresource) hof component hmem
  refine allNumbers_object.mpr ?_
  simp only [List.forall_mem_append, List.forall_mem_map, List.forall_mem_cons, List.not_mem_nil,
    false_implies, implies_true, and_true]
  refine ⟨⟨⟨allNumbers_text _, allNumbers_of_isEmpty rfl⟩, fun url _ => allNumbers_of_isEmpty rfl⟩, ?_, ?_⟩
  · exact allNumbers_object.mpr hpaths
  · simpa [object] using hschemas

end Numbers

/-! ### Writing -/

/-- What is stated of the fields can be written. -/
def FieldsWritable (fields : List FieldSpec) : Prop :=
  ∀ field ∈ fields, (∀ default ∈ field.declaredDefault, default.hasText = true) ∧
    Schema.BoundsWritable field

theorem FieldsWritable.numbers {fields : List FieldSpec} (h : FieldsWritable fields) {field : FieldSpec}
    (hfield : field ∈ fields) : FieldNumbers (fun n => n.hasText = true) field where
  default := fun n hn => (h field hfield).1 (.number n) hn
  bounds := by
    intro constraints hconstraints c hc n hn
    have hvalue := (h field hfield).2 constraints (Outcome.toOption_eq_some.mpr hconstraints) c hc
    rwa [hn] at hvalue

/-- The document can be written where the fields of all resources can. -/
theorem hasText_documentOf {schemas : List (List (String × Json))}
    (hwritable : ∀ resource ∈ config.resources, FieldsWritable resource.storedFields)
    (h : config.resources.mapM components = .ok schemas) :
    (documentOf config serverUrl schemas.flatten).hasText = true := by
  have hfixed : ∀ n ∈ fixedNumbers, n.hasText = true := by decide +kernel
  exact hasText_iff.mpr (allNumbers_documentOf hfixed
    (fun resource hresource field hfield => (hwritable resource hresource).numbers hfield) h)

end ApiScaffold.OpenApi
