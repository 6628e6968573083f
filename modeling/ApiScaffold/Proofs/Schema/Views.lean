import Mathlib
import ApiScaffold.Proofs.Check.Fields
import ApiScaffold.Proofs.OpenApi.Component

/-! The views of a resource: its table, its models and its components in the API document. They name
the same columns in the same order, and agree on what has to be there and on what has a default. -/

namespace ApiScaffold

variable {resource : ResourceSpec}

/-! ### Outlines -/

namespace ResourceSpec

theorem map_outline {α β : Type} (f : α → β) (key : α) (ofField : FieldSpec → α)
    (ofTime : String → α) :
    (resource.outline key ofField ofTime).map f =
      resource.outline (f key) (fun field => f (ofField field)) fun name => f (ofTime name) := by
  simp [outline, List.map_map, Function.comp_def]

/-- Whatever looks alike for each stored field looks alike as a whole. -/
theorem outline_congr {α : Type} {key : α} {ofField ofField' : FieldSpec → α} {ofTime : String → α}
    (h : ∀ field ∈ resource.storedFields, ofField field = ofField' field) :
    resource.outline key ofField ofTime = resource.outline key ofField' ofTime := by
  rw [outline, outline, List.map_congr_left h]

/-- The names of the columns, and which of them may be null. -/
def nullability (resource : ResourceSpec) : List (String × Bool) :=
  resource.outline (primaryKey, false) (fun field => (field.name, !field.required))
    fun name => (name, false)

theorem nullability_names (resource : ResourceSpec) :
    resource.nullability.map (·.1) = resource.tableColumns := by
  rw [nullability, map_outline, tableColumns_eq_outline]
  rfl

/-- What a record requires is what may not be null. -/
theorem recordRequired_eq (resource : ResourceSpec) :
    OpenApi.recordRequired resource =
      (resource.nullability.filter fun entry => !entry.2).map (·.1) := by
  have htimes : ∀ names : List String,
      ((names.map fun name => (name, false)).filter fun entry => !entry.2).map (·.1) = names := by
    intro names
    induction names with
    | nil => rfl
    | cons name rest ih => simpa using ih
  rw [OpenApi.recordRequired, OpenApi.requiredNames, nullability, outline, List.filter_append,
    List.map_append, htimes]
  simp [List.filter_map, List.map_map, Function.comp_def]

end ResourceSpec

/-! ### Views of records -/

namespace Migration

variable {withRelations : Bool} {table : Sql.Table}

theorem table_nullability (h : tableOf withRelations resource = .ok table) :
    table.columns.map (fun column => (column.name, column.nullable)) = resource.nullability := by
  apply tableOf_map h
  intro field column hcolumn
  obtain ⟨mapping, default, -, -, rfl⟩ := fieldColumn_eq_ok.mp hcolumn
  rfl

theorem table_defaults (h : tableOf withRelations resource = .ok table) :
    table.columns.map (fun column => (column.name, column.default.isSome)) =
      resource.outline (primaryKey, false) (fun field => (field.name, field.hasDefault))
        fun name => (name, false) := by
  apply tableOf_map h
  intro field column hcolumn
  obtain ⟨mapping, default, -, hdefault, rfl⟩ := fieldColumn_eq_ok.mp hcolumn
  exact congrArg (Prod.mk field.name) (Outcome.option_isSome_of_mapM hdefault)

theorem table_required (h : tableOf withRelations resource = .ok table) :
    (table.columns.filter fun column => !column.nullable).map Sql.Column.name =
      OpenApi.recordRequired resource := by
  rw [ResourceSpec.recordRequired_eq, ← table_nullability h, List.filter_map, List.map_map]
  rfl

end Migration

namespace Schema

variable {resolved : Mappings}

theorem recordModel_nullability (hnodup : resource.fieldNames.Nodup)
    (h : mappings resource = .ok resolved) :
    (recordModel resource resolved).attributes.map (fun a => (a.name, a.typing.isOptional)) =
      resource.nullability := by
  have hattributes : (recordModel resource resolved).attributes =
      resource.outline ⟨primaryKey, .named "UUID", .unset⟩ (declaredAttribute resolved)
        fun name => ⟨name, .named "datetime", .unset⟩ := rfl
  rw [hattributes, ResourceSpec.map_outline]
  apply ResourceSpec.outline_congr
  intro field hfield
  rw [declaredAttribute_name,
    declaredAttribute_isOptional hnodup h (ResourceSpec.mem_storedFields.mp hfield).1]

theorem createModel_nullability (hnodup : resource.fieldNames.Nodup)
    (h : mappings resource = .ok resolved) :
    (createModel resource resolved).attributes.map (fun a => (a.name, a.typing.isOptional)) =
      resource.clientFields.map fun field => (field.name, !field.required) := by
  rw [createModel, List.map_map]
  apply List.map_congr_left
  intro field hfield
  rw [Function.comp_apply, declaredAttribute_name,
    declaredAttribute_isOptional hnodup h (List.mem_of_mem_filter hfield)]

theorem updateModel_names :
    (updateModel resource resolved).attributes.map Attribute.name =
      resource.clientFields.map FieldSpec.name := by
  rw [updateModel, List.map_map]
  rfl

end Schema

/-! ### Agreement -/

/-- A table, a model and a component of full records agree. -/
structure RecordViews (table : Sql.Table) (model : Schema.Model) (component : Json) : Prop where
  columns_nodup : table.columnNames.Nodup
  attributes : model.attributes.map Schema.Attribute.name = table.columnNames
  properties : (OpenApi.propertiesOf component).map (·.1) = table.columnNames
  nullable : table.columns.map (fun column => (column.name, column.nullable)) =
    model.attributes.map fun a => (a.name, a.typing.isOptional)
  required : OpenApi.requiredOf component =
    some ((table.columns.filter fun column => !column.nullable).map Sql.Column.name)
  defaults : table.columns.map (fun column => (column.name, column.default.isSome)) =
    OpenApi.defaultsOf component

/-- The models and components of create and update requests agree. -/
structure BodyViews (create update : Schema.Model) (createComponent updateComponent : Json) :
    Prop where
  update_attributes :
    update.attributes.map Schema.Attribute.name = create.attributes.map Schema.Attribute.name
  create_properties : (OpenApi.propertiesOf createComponent).map (·.1) =
    create.attributes.map Schema.Attribute.name
  update_properties : (OpenApi.propertiesOf updateComponent).map (·.1) =
    create.attributes.map Schema.Attribute.name
  required : OpenApi.requiredOf createComponent =
    some ((create.attributes.filter fun a => !a.typing.isOptional).map Schema.Attribute.name)

theorem recordViews {withRelations : Bool} {table : Sql.Table} {resolved : Schema.Mappings}
    {component : Json} (hnodup : resource.fieldNames.Nodup)
    (htable : Migration.tableOf withRelations resource = .ok table)
    (hresolved : Schema.mappings resource = .ok resolved)
    (hcomponent : OpenApi.recordComponent resource = .ok component) :
    RecordViews table (Schema.recordModel resource resolved) component := by
  obtain ⟨hdefaults, hrequired⟩ := OpenApi.recordComponent_eq_ok hnodup hcomponent
  have hcolumns := Migration.tableOf_columnNames htable
  have hmodel := Schema.recordModel_nullability hnodup hresolved
  refine ⟨?_, ?_, ?_, ?_, ?_, ?_⟩
  · rw [hcolumns]
    exact ResourceSpec.tableColumns_nodup hnodup
  · have hnames := congrArg (List.map Prod.fst) hmodel
    rw [List.map_map, ResourceSpec.nullability_names] at hnames
    rw [hcolumns]
    exact hnames
  · rw [← OpenApi.defaultsOf_names, hdefaults, ResourceSpec.map_outline, hcolumns,
      ResourceSpec.tableColumns_eq_outline]
    rfl
  · rw [Migration.table_nullability htable, hmodel]
  · rw [hrequired, Migration.table_required htable]
  · rw [Migration.table_defaults htable, hdefaults]

theorem bodyViews {resolved : Schema.Mappings} {body : List (String × Json)}
    (hnodup : resource.fieldNames.Nodup) (hresolved : Schema.mappings resource = .ok resolved)
    (hbody : OpenApi.bodyProperties resource = .ok body) :
    BodyViews (Schema.createModel resource resolved) (Schema.updateModel resource resolved)
      (OpenApi.createComponent resource body) (OpenApi.updateComponent body) := by
  have hcreate := Schema.createModel_nullability hnodup hresolved
  have hnames : (Schema.createModel resource resolved).attributes.map Schema.Attribute.name =
      resource.clientFields.map FieldSpec.name := by
    have hfirst := congrArg (List.map Prod.fst) hcreate
    rw [List.map_map, List.map_map] at hfirst
    exact hfirst
  obtain ⟨hproperties, hrequired⟩ := @OpenApi.createComponent_views resource body
  refine ⟨?_, ?_, ?_, ?_⟩
  · rw [Schema.updateModel_names, hnames]
  · rw [hproperties, hnames, OpenApi.bodyProperties_names hnodup hbody]
  · rw [OpenApi.updateComponent_properties, hnames, OpenApi.bodyProperties_names hnodup hbody]
  · have hfilter := congrArg
      (fun entries : List (String × Bool) => (entries.filter fun entry => !entry.2).map Prod.fst) hcreate
    simp only [List.filter_map, List.map_map] at hfilter
    rw [hrequired, OpenApi.requiredNames]
    simpa [Function.comp_def] using hfilter.symm

/-- **The views of a resource agree.** Where the names of fields differ and all fields can be
resolved, models and components are there and those of requests agree. A table is there exactly if the
stored defaults can be written, and then it agrees with the model and the component of records. -/
theorem views_agree (hnodup : resource.fieldNames.Nodup)
    (hmapped : ∀ field ∈ resource.fields, ∃ mapping, Schema.mapField field = .ok mapping) :
    ∃ resolved components record create update, Schema.mappings resource = .ok resolved ∧
      OpenApi.components resource = .ok components ∧
      components.lookup (Naming.schemaNames resource.name).record = some record ∧
      components.lookup (Naming.schemaNames resource.name).create = some create ∧
      components.lookup (Naming.schemaNames resource.name).update = some update ∧
      BodyViews (Schema.createModel resource resolved) (Schema.updateModel resource resolved)
        create update ∧
      ∀ withRelations,
        (∀ table, Migration.buildTable withRelations resource = .ok table →
          RecordViews table (Schema.recordModel resource resolved) record) ∧
        ((∃ table, Migration.buildTable withRelations resource = .ok table) ↔
          ∀ field ∈ resource.storedFields, ∀ default ∈ field.declaredDefault,
            default.hasText = true) := by
  obtain ⟨resolved, hresolved⟩ := Schema.exists_mappings hmapped
  obtain ⟨record, body, hrecord, hbody, hcomponents⟩ := OpenApi.exists_components hmapped
  have hnames := OpenApi.schemaNames_nodup resource.name
  refine ⟨resolved, _, record, OpenApi.createComponent resource body, OpenApi.updateComponent body,
    hresolved, hcomponents, ?_, ?_, ?_, bodyViews hnodup hresolved hbody, fun withRelations => ?_⟩
  · exact lookup_of_mem hnames List.mem_cons_self
  · exact lookup_of_mem hnames (List.mem_cons_of_mem _ List.mem_cons_self)
  · exact lookup_of_mem hnames (List.mem_cons_of_mem _ (List.mem_cons_of_mem _ List.mem_cons_self))
  · refine ⟨fun table htable => ?_, ?_⟩
    · exact recordViews hnodup ((Migration.buildTable_eq_ok hnodup).mp htable) hresolved hrecord
    · simp only [Migration.buildTable_eq_ok hnodup]
      exact Migration.exists_tableOf_iff hmapped

/-- The views of a post agree, its table among them. -/
theorem views_agree_blog :
    Blog.post.fieldNames.Nodup ∧
    (∀ field ∈ Blog.post.fields, ∃ mapping, Schema.mapField field = .ok mapping) ∧
    ∃ table resolved components record create update,
      Migration.buildTable true Blog.post = .ok table ∧
      Schema.mappings Blog.post = .ok resolved ∧ OpenApi.components Blog.post = .ok components ∧
      components.lookup "Post" = some record ∧
      RecordViews table (Schema.recordModel Blog.post resolved) record ∧
      BodyViews (Schema.createModel Blog.post resolved) (Schema.updateModel Blog.post resolved)
        create update := by
  have hnodup : Blog.post.fieldNames.Nodup := by decide
  have hpost : Blog.post ∈ Blog.config.resources := by decide
  have hmapped : ∀ field ∈ Blog.post.fields, ∃ mapping, Schema.mapField field = .ok mapping :=
    fun field hfield => Blog.accepted.exists_mapField hpost hfield
  obtain ⟨resolved, components, record, create, update, hresolved, hcomponents, hrecord, -, -, hbody,
    htables⟩ := views_agree hnodup hmapped
  obtain ⟨htable, hexists⟩ := htables true
  obtain ⟨table, hbuilt⟩ := hexists.mpr (by decide)
  exact ⟨hnodup, hmapped, table, resolved, components, record, create, update, hbuilt, hresolved,
    hcomponents, hrecord, htable table hbuilt, hbody⟩

end ApiScaffold
