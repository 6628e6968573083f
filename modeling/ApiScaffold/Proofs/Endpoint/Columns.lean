import Mathlib
import ApiScaffold.Proofs.Config.Query
import ApiScaffold.Proofs.Endpoint.Stamps
import ApiScaffold.Proofs.Schema.Views

/-! What the handlers of a resource read and write, against its table. The models, the stamps and the lists of
the query are made by rules of their own for names that the server manages; all of them name columns. -/

namespace ApiScaffold.Endpoint

open Schema (createModel updateModel)

/-- The lists of fields in the module of a list query. -/
def listNames : List String := ["FILTER_FIELDS", "SEARCH_FIELDS", "ORDER_BY_FIELDS"]

/-- What the modules of a resource name is in a table: its name and its key are the constants of every module,
and its columns take what requests bring, what handlers stamp and what list queries ask for. -/
structure TouchesColumns (resource : ResourceSpec) (resolved : Schema.Mappings) (table : Sql.Table) : Prop where
  table_name : ∀ operation,
    constant? Code.text? "TABLE_NAME" (moduleLines resource operation) = some table.name
  key : ∀ operation, ∃ key, constant? Code.text? "PRIMARY_KEY" (moduleLines resource operation) = some key ∧
    key ∈ table.columnNames ∧ ∀ column ∈ table.columns, column.isKey = true ↔ column.name = key
  create_attributes : (createModel resource resolved).attributes.map Schema.Attribute.name ⊆ table.columnNames
  update_attributes : (updateModel resource resolved).attributes.map Schema.Attribute.name ⊆ table.columnNames
  create_stamps : ∃ keys, stampedKeys? "record" (moduleLines resource .create) = some keys ∧
    keys ⊆ table.columnNames
  update_stamps : ∃ keys, stampedKeys? "changes" (moduleLines resource .update) = some keys ∧
    keys ⊆ table.columnNames
  listed : ∀ name ∈ listNames, ∃ names,
    constant? Code.tuple? name (moduleLines resource .list) = some names ∧ names ⊆ table.columnNames

section Columns

variable {resource : ResourceSpec}

/-- Fields of a resource are columns, whether they are stored as declared or stand behind a column of the
server. -/
theorem map_name_subset_tableColumns {fields : List FieldSpec} (h : fields ⊆ resource.fields) :
    fields.map FieldSpec.name ⊆ resource.tableColumns := by
  intro name hname
  obtain ⟨field, hfield, rfl⟩ := List.mem_map.mp hname
  exact ResourceSpec.mem_tableColumns.mpr (Or.inl (List.mem_map_of_mem (h hfield)))

theorem createModel_names (resolved : Schema.Mappings) :
    (createModel resource resolved).attributes.map Schema.Attribute.name =
      resource.clientFields.map FieldSpec.name := by
  rw [createModel, List.map_map]
  exact List.map_congr_left fun field _ => Schema.declaredAttribute_name field

/-- **Handlers only touch columns that exist.** Whatever the fields of a resource are called and however the
policy of its timestamps is set, if it has a table, then everything that its handlers name is there. -/
theorem handlers_touch_columns {withRelations : Bool} {table : Sql.Table}
    (h : Migration.buildTable withRelations resource = .ok table) (resolved : Schema.Mappings) :
    TouchesColumns resource resolved table := by
  have htable := Migration.tableOf_of_buildTable h
  have hcolumns := Migration.tableOf_columnNames htable
  have hclient : resource.clientFields.map FieldSpec.name ⊆ table.columnNames := by
    rw [hcolumns]
    exact map_name_subset_tableColumns (List.filter_subset_self _)
  have hsynthetic : resource.syntheticNames ⊆ table.columnNames := by
    rw [hcolumns]
    exact fun name hname => ResourceSpec.mem_tableColumns.mpr (Or.inr hname)
  obtain ⟨hfilters, hsearch, horder⟩ := constant?_listed resource
  exact {
    table_name := fun operation => by rw [constant?_table, Migration.tableOf_name htable]
    key := fun operation => ⟨primaryKey, constant?_key resource operation, hsynthetic List.mem_cons_self,
      fun column hcolumn => Migration.tableOf_isKey htable hcolumn⟩
    create_attributes := by
      rw [createModel_names]
      exact hclient
    update_attributes := by
      rw [Schema.updateModel_names]
      exact hclient
    create_stamps := ⟨_, stampedKeys?_create resource, hsynthetic⟩
    update_stamps := by
      refine ⟨_, stampedKeys?_update resource, fun name hname => hsynthetic ?_⟩
      rw [ResourceSpec.syntheticNames, TimestampPolicy.names]
      split at hname <;> simp_all
    listed := by
      rw [hcolumns, listNames]
      simp only [List.forall_mem_cons]
      exact ⟨⟨_, hfilters, map_name_subset_tableColumns (filtersFrom_subset _ _)⟩,
        ⟨_, hsearch, map_name_subset_tableColumns (List.filter_subset_self _)⟩,
        ⟨_, horder, map_name_subset_tableColumns (List.filter_subset_self _)⟩, List.forall_mem_nil _⟩ }

end Columns

/-- The handlers of posts touch the columns of their table. -/
theorem handlers_touch_columns_blog :
    ∃ table, Migration.buildTable true Blog.post = .ok table ∧
      ∀ resolved, TouchesColumns Blog.post resolved table := by
  have hok : (Migration.buildTable true Blog.post).isOk = true := by decide +kernel
  obtain ⟨table, htable⟩ := Outcome.exists_eq_ok hok
  exact ⟨table, htable, handlers_touch_columns htable⟩

end ApiScaffold.Endpoint
