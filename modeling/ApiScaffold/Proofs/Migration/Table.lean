import Mathlib
import ApiScaffold.Migration.Table
import ApiScaffold.Proofs.Outcome

/-! Tables of resources. The columns of a table follow from the resource alone: the key, the stored
fields and the timestamps. They have different names where the fields have, and tables of different
names can be put into one database. What is left to fail is a default that cannot be written. -/

namespace ApiScaffold

/-! ### Names of columns -/

theorem TimestampPolicy.names_nodup (policy : TimestampPolicy) : policy.names.Nodup := by
  obtain ⟨created, updated⟩ := policy
  cases created <;> cases updated <;> decide

theorem TimestampPolicy.key_not_mem_names (policy : TimestampPolicy) :
    primaryKey ∉ policy.names := by
  obtain ⟨created, updated⟩ := policy
  cases created <;> cases updated <;> decide

namespace ResourceSpec

variable {resource : ResourceSpec}

theorem syntheticNames_subset (resource : ResourceSpec) : resource.syntheticNames ⊆ serverManaged := by
  rw [syntheticNames]
  obtain ⟨created, updated⟩ := resource.timestamps
  cases created <;> cases updated <;> decide

/-- The names of the columns in the order of the table. -/
def tableColumns (resource : ResourceSpec) : List String :=
  primaryKey :: resource.storedFields.map FieldSpec.name ++ resource.timestamps.names

/-- A list with an entry for every column: for the key, for the stored fields and for the timestamps. -/
def outline {α : Type} (resource : ResourceSpec) (key : α) (ofField : FieldSpec → α)
    (ofTime : String → α) : List α :=
  key :: resource.storedFields.map ofField ++ resource.timestamps.names.map ofTime

theorem tableColumns_eq_outline (resource : ResourceSpec) :
    resource.tableColumns = resource.outline primaryKey FieldSpec.name id := by
  rw [tableColumns, outline, List.map_id]

theorem mem_storedFields {field : FieldSpec} :
    field ∈ resource.storedFields ↔
      field ∈ resource.fields ∧ field.name ≠ primaryKey ∧ field.name ∉ resource.timestamps.names := by
  simp [storedFields, syntheticNames, List.mem_filter]

/-- A declared name that is no column of its own is the key or a timestamp. -/
theorem mem_tableColumns {name : String} :
    name ∈ resource.tableColumns ↔ name ∈ resource.fieldNames ∨ name ∈ resource.syntheticNames := by
  simp only [tableColumns, syntheticNames, fieldNames, List.cons_append, List.mem_cons,
    List.mem_append, List.mem_map, mem_storedFields]
  constructor
  · rintro (hkey | ⟨field, ⟨hfield, -, -⟩, rfl⟩ | htime)
    · exact Or.inr (Or.inl hkey)
    · exact Or.inl ⟨field, hfield, rfl⟩
    · exact Or.inr (Or.inr htime)
  · rintro (⟨field, hfield, rfl⟩ | hkey | htime)
    · by_cases hkey : field.name = primaryKey
      · exact Or.inl hkey
      · by_cases htime : field.name ∈ resource.timestamps.names
        · exact Or.inr (Or.inr htime)
        · exact Or.inr (Or.inl ⟨field, ⟨hfield, hkey, htime⟩, rfl⟩)
    · exact Or.inl hkey
    · exact Or.inr (Or.inr htime)

/-- Different fields make different columns, also beside the key and the timestamps. -/
theorem tableColumns_nodup (h : resource.fieldNames.Nodup) : resource.tableColumns.Nodup := by
  have hstored : (resource.storedFields.map FieldSpec.name).Nodup :=
    h.sublist (List.filter_sublist.map FieldSpec.name)
  rw [tableColumns, List.cons_append, List.nodup_cons, List.nodup_append']
  refine ⟨fun hmem => ?_, hstored, resource.timestamps.names_nodup, fun name hname htime => ?_⟩
  · rcases List.mem_append.mp hmem with hname | htime
    · obtain ⟨field, hfield, hkey⟩ := List.mem_map.mp hname
      exact (mem_storedFields.mp hfield).2.1 hkey
    · exact resource.timestamps.key_not_mem_names htime
  · obtain ⟨field, hfield, rfl⟩ := List.mem_map.mp hname
    exact (mem_storedFields.mp hfield).2.2 htime

end ResourceSpec

namespace Sql

/-! ### Databases -/

theorem Table.exists_column {table : Table} {name : String} (h : name ∈ table.columnNames) :
    ∃ column ∈ table.columns, table.column? name = some column := by
  obtain ⟨column, hcolumn, rfl⟩ := List.mem_map.mp h
  have hsome : (table.column? column.name).isSome = true :=
    List.find?_isSome.mpr ⟨column, hcolumn, by simp⟩
  obtain ⟨found, hfound⟩ := Option.isSome_iff_exists.mp hsome
  exact ⟨found, List.mem_of_find?_eq_some hfound, hfound⟩

theorem firstRepeated?_eq_none {seen names : List String} :
    firstRepeated? seen names = none ↔ names.Nodup ∧ ∀ name ∈ names, name ∉ seen := by
  induction names generalizing seen with
  | nil => simp [firstRepeated?]
  | cons name rest ih =>
      rw [firstRepeated?]
      by_cases hseen : name ∈ seen
      · simp [hseen]
      · simp only [List.contains_eq_mem, hseen, decide_false, Bool.false_eq_true, if_false, ih,
          List.nodup_cons, List.mem_cons, not_or, forall_eq_or_imp, not_false_eq_true, true_and]
        constructor
        · rintro ⟨hnodup, hfresh⟩
          exact ⟨⟨fun hmem => (hfresh name hmem).1 rfl, hnodup⟩,
            fun other hother => (hfresh other hother).2⟩
        · rintro ⟨⟨hmem, hnodup⟩, hfresh⟩
          exact ⟨hnodup, fun other hother =>
            ⟨fun heq => hmem (heq ▸ hother), hfresh other hother⟩⟩

/-- A table can be put into a database exactly if no other has its name and its columns have different
names. -/
theorem define_eq_ok {tables : List Table} {table : Table} {final : List Table} :
    define tables table = .ok final ↔
      table.name ∉ tables.map Table.name ∧ table.columnNames.Nodup ∧ final = tables ++ [table] := by
  rw [define]
  by_cases hname : table.name ∈ tables.map Table.name
  · have hany : (tables.any fun other => other.name == table.name) = true := by
      obtain ⟨other, hother, heq⟩ := List.mem_map.mp hname
      exact List.any_eq_true.mpr ⟨other, hother, by simp [heq]⟩
    simp [hany, hname]
  · have hany : (tables.any fun other => other.name == table.name) = false := by
      rw [List.any_eq_false]
      intro other hother heq
      exact hname (beq_iff_eq.mp heq ▸ List.mem_map_of_mem hother)
    have hnodup := @firstRepeated?_eq_none [] table.columnNames
    simp only [hany, Bool.false_eq_true, if_false]
    cases hrepeated : firstRepeated? [] table.columnNames with
    | some name =>
        rw [hrepeated] at hnodup
        simp at hnodup
        simp [hnodup]
    | none =>
        rw [hrepeated] at hnodup
        simp at hnodup
        simp [hname, hnodup, eq_comm]

/-! ### Defaults -/

theorem columnDefault_eq_error {default : Scalar} {fault : LiteralFault}
    (h : columnDefault default = .error fault) :
    default.hasText = false ∧ fault = .numberTooLong := by
  cases default with
  | null => cases h
  | bool b => cases h
  | number n =>
      rw [columnDefault] at h
      split at h
      · cases h
      · rename_i hlong
        exact ⟨Bool.eq_false_of_not_eq_true hlong, (Except.error.inj h).symm⟩
  | text s => cases h

theorem hasText_of_columnDefault {default : Scalar} {written : ColumnDefault}
    (h : columnDefault default = .ok written) : default.hasText = true := by
  cases default with
  | null => rfl
  | bool b => rfl
  | number n =>
      rw [columnDefault] at h
      split at h
      · assumption
      · cases h
  | text s => rfl

end Sql

namespace Migration

/-! ### Columns of fields -/

variable {withRelations : Bool}

/-- The column of a field with the given storage and default. -/
def columnOf (withRelations : Bool) (field : FieldSpec) (storage : Storage)
    (default : Option Sql.ColumnDefault) : Sql.Column where
  name := field.name
  storage := storage
  nullable := !field.required
  unique := field.unique
  default := default
  reference := if withRelations then field.target?.map Sql.referenceOf else none

theorem fieldColumn_eq_ok {field : FieldSpec} {column : Sql.Column} :
    fieldColumn withRelations field = .ok column ↔
      ∃ mapping default, Schema.mapField field = .ok mapping ∧
        field.declaredDefault.mapM Sql.columnDefault = .ok default ∧
          columnOf withRelations field mapping.storage default = column := by
  unfold fieldColumn
  simp only [Outcome.bind_eq_ok, Outcome.mapError_eq_ok]
  constructor
  · rintro ⟨mapping, hmapping, default, hdefault, hcolumn⟩
    exact ⟨mapping, default, hmapping, hdefault, Except.ok.inj hcolumn⟩
  · rintro ⟨mapping, default, hmapping, hdefault, rfl⟩
    exact ⟨mapping, hmapping, default, hdefault, rfl⟩

theorem fieldColumn_eq_error {field : FieldSpec} {fault : GenerationFault}
    (h : fieldColumn withRelations field = .error fault) :
    (∃ first, Schema.mapField field = .error first) ∨
      ((∃ default ∈ field.declaredDefault, default.hasText = false) ∧
        fault = .literal .numberTooLong) := by
  unfold fieldColumn at h
  rcases Outcome.bind_eq_error.mp h with hmapping | ⟨mapping, -, h⟩
  · obtain ⟨first, hfirst, -⟩ := Outcome.mapError_eq_error.mp hmapping
    exact Or.inl ⟨first, hfirst⟩
  · rcases Outcome.bind_eq_error.mp h with hdefault | ⟨default, -, hpure⟩
    · obtain ⟨first, hfirst, rfl⟩ := Outcome.mapError_eq_error.mp hdefault
      obtain ⟨default, hdeclared, hwritten⟩ := Outcome.option_mapM_eq_error.mp hfirst
      obtain ⟨hlong, rfl⟩ := Sql.columnDefault_eq_error hwritten
      exact Or.inr ⟨⟨default, hdeclared, hlong⟩, rfl⟩
    · cases hpure

/-! ### Tables of resources -/

theorem tableOf_eq_ok {resource : ResourceSpec} {table : Sql.Table} :
    tableOf withRelations resource = .ok table ↔
      ∃ columns, resource.storedFields.mapM (fieldColumn withRelations) = .ok columns ∧
        table = ⟨resource.tableName,
          keyColumn :: columns ++ resource.timestamps.names.map timestampColumn⟩ := by
  unfold tableOf
  rw [Outcome.bind_eq_ok]
  constructor
  · rintro ⟨columns, hcolumns, htable⟩
    exact ⟨columns, hcolumns, (Except.ok.inj htable).symm⟩
  · rintro ⟨columns, hcolumns, rfl⟩
    exact ⟨columns, hcolumns, rfl⟩

theorem tableOf_name {resource : ResourceSpec} {table : Sql.Table}
    (h : tableOf withRelations resource = .ok table) : table.name = resource.tableName := by
  obtain ⟨columns, -, rfl⟩ := tableOf_eq_ok.mp h
  rfl

/-- What is made of the columns of a table, if it follows for the column of a field from the field. -/
theorem tableOf_map {α : Type} {resource : ResourceSpec} {table : Sql.Table} {f : Sql.Column → α}
    {ofField : FieldSpec → α} (h : tableOf withRelations resource = .ok table)
    (hfield : ∀ field column, fieldColumn withRelations field = .ok column →
      f column = ofField field) :
    table.columns.map f =
      resource.outline (f keyColumn) ofField fun name => f (timestampColumn name) := by
  obtain ⟨columns, hcolumns, rfl⟩ := tableOf_eq_ok.mp h
  have hmap : columns.map f = resource.storedFields.map ofField :=
    Outcome.mapM_map_eq hcolumns fun field _ column hcolumn => hfield field column hcolumn
  rw [ResourceSpec.outline, List.map_append, List.map_cons, hmap, List.map_map]
  rfl

theorem fieldColumn_name {field : FieldSpec} {column : Sql.Column}
    (h : fieldColumn withRelations field = .ok column) : column.name = field.name := by
  obtain ⟨mapping, default, -, -, rfl⟩ := fieldColumn_eq_ok.mp h
  rfl

/-- The key is the only column of its name, and no other one is a key. -/
theorem tableOf_isKey {resource : ResourceSpec} {table : Sql.Table}
    (h : tableOf withRelations resource = .ok table) {column : Sql.Column}
    (hcolumn : column ∈ table.columns) : column.isKey = true ↔ column.name = primaryKey := by
  obtain ⟨columns, hcolumns, rfl⟩ := tableOf_eq_ok.mp h
  rw [List.cons_append, List.mem_cons, List.mem_append] at hcolumn
  rcases hcolumn with rfl | hfield | htime
  · simp [keyColumn]
  · obtain ⟨field, hstored, hmade⟩ := Outcome.exists_of_mem_results hcolumns hfield
    have hname := (ResourceSpec.mem_storedFields.mp hstored).2.1
    obtain ⟨mapping, default, -, -, rfl⟩ := fieldColumn_eq_ok.mp hmade
    simp [columnOf, hname]
  · obtain ⟨name, hname, rfl⟩ := List.mem_map.mp htime
    have hne : name ≠ primaryKey := fun heq =>
      resource.timestamps.key_not_mem_names (heq ▸ hname)
    simp [timestampColumn, hne]

/-- The names of the columns follow from the resource alone. -/
theorem tableOf_columnNames {resource : ResourceSpec} {table : Sql.Table}
    (h : tableOf withRelations resource = .ok table) :
    table.columnNames = resource.tableColumns := by
  rw [Sql.Table.columnNames, tableOf_map h fun _ _ => fieldColumn_name,
    ResourceSpec.tableColumns_eq_outline]
  rfl

/-- Where all fields can be resolved, only a default that cannot be written is in the way. -/
theorem tableOf_eq_error {resource : ResourceSpec} {fault : GenerationFault}
    (hmapped : ∀ field ∈ resource.fields, ∃ mapping, Schema.mapField field = .ok mapping)
    (h : tableOf withRelations resource = .error fault) :
    (∃ field ∈ resource.storedFields, ∃ default ∈ field.declaredDefault,
      default.hasText = false) ∧ fault = .literal .numberTooLong := by
  unfold tableOf at h
  rcases Outcome.bind_eq_error.mp h with hcolumns | ⟨columns, -, hpure⟩
  · obtain ⟨field, hfield, hcolumn⟩ := Outcome.mapM_eq_error hcolumns
    rcases fieldColumn_eq_error hcolumn with ⟨first, hfirst⟩ | ⟨⟨default, hdefault, hlong⟩, hfault⟩
    · obtain ⟨mapping, hmapping⟩ := hmapped field (ResourceSpec.mem_storedFields.mp hfield).1
      rw [hfirst] at hmapping
      cases hmapping
    · exact ⟨⟨field, hfield, default, hdefault, hlong⟩, hfault⟩
  · cases hpure

/-- The table of a resource with different fields can be put wherever its name is not taken. -/
theorem define_tableOf {resource : ResourceSpec} {tables : List Sql.Table} {table : Sql.Table}
    (hnodup : resource.fieldNames.Nodup) (hfresh : resource.tableName ∉ tables.map Sql.Table.name)
    (h : tableOf withRelations resource = .ok table) :
    Sql.define tables table = .ok (tables ++ [table]) := by
  apply Sql.define_eq_ok.mpr
  refine ⟨?_, ?_, rfl⟩
  · rw [tableOf_name h]
    exact hfresh
  · rw [tableOf_columnNames h]
    exact ResourceSpec.tableColumns_nodup hnodup

theorem tableOf_of_buildTable {resource : ResourceSpec} {table : Sql.Table}
    (h : buildTable withRelations resource = .ok table) :
    tableOf withRelations resource = .ok table := by
  unfold buildTable at h
  obtain ⟨made, hmade, h⟩ := Outcome.bind_eq_ok.mp h
  obtain ⟨_, -, hpure⟩ := Outcome.bind_eq_ok.mp h
  rw [hmade, Except.ok.inj hpure]

theorem columnNames_nodup_of_buildTable {resource : ResourceSpec} {table : Sql.Table}
    (h : buildTable withRelations resource = .ok table) : table.columnNames.Nodup := by
  unfold buildTable at h
  obtain ⟨made, -, h⟩ := Outcome.bind_eq_ok.mp h
  obtain ⟨_, hdefined, hpure⟩ := Outcome.bind_eq_ok.mp h
  rw [← Except.ok.inj hpure]
  exact (Sql.define_eq_ok.mp (Outcome.mapError_eq_ok.mp hdefined)).2.1

/-- A table of its own is built where the names of the fields differ. -/
theorem buildTable_eq_ok {resource : ResourceSpec} (hnodup : resource.fieldNames.Nodup)
    {table : Sql.Table} :
    buildTable withRelations resource = .ok table ↔ tableOf withRelations resource = .ok table := by
  refine ⟨tableOf_of_buildTable, fun h => ?_⟩
  unfold buildTable
  rw [Outcome.bind_eq_ok]
  refine ⟨table, h, ?_⟩
  rw [define_tableOf hnodup List.not_mem_nil h]
  rfl

/-- Where all fields can be resolved, there is a table exactly if all stored defaults can be written. -/
theorem exists_tableOf_iff {resource : ResourceSpec}
    (hmapped : ∀ field ∈ resource.fields, ∃ mapping, Schema.mapField field = .ok mapping) :
    (∃ table, tableOf withRelations resource = .ok table) ↔
      ∀ field ∈ resource.storedFields, ∀ default ∈ field.declaredDefault,
        default.hasText = true := by
  constructor
  · rintro ⟨table, htable⟩ field hfield default hdefault
    obtain ⟨columns, hcolumns, -⟩ := tableOf_eq_ok.mp htable
    obtain ⟨column, -, hcolumn⟩ := Outcome.exists_of_mem_mapM hcolumns hfield
    obtain ⟨mapping, written, -, hwritten, -⟩ := fieldColumn_eq_ok.mp hcolumn
    rw [Option.mem_def.mp hdefault] at hwritten
    obtain ⟨source, hsource, -⟩ := Outcome.map_eq_ok.mp hwritten
    exact Sql.hasText_of_columnDefault hsource
  · intro hwritable
    cases htable : tableOf withRelations resource with
    | ok table => exact ⟨table, rfl⟩
    | error fault =>
        obtain ⟨⟨field, hfield, default, hdefault, hlong⟩, -⟩ := tableOf_eq_error hmapped htable
        rw [hwritable field hfield default hdefault] at hlong
        cases hlong

/-! ### Tables of a configuration -/

section Database

variable {resource : ResourceSpec} {resources : List ResourceSpec} {tables final : List Sql.Table}
  {fault : GenerationFault}

theorem addTable_eq_ok (h : addTable withRelations tables resource = .ok final) :
    ∃ table, tableOf withRelations resource = .ok table ∧ final = tables ++ [table] := by
  obtain ⟨table, htable, hdefine⟩ := Outcome.bind_eq_ok.mp h
  obtain ⟨-, -, hfinal⟩ := Sql.define_eq_ok.mp (Outcome.mapError_eq_ok.mp hdefine)
  exact ⟨table, htable, hfinal⟩

theorem addTable_eq_error (hnodup : resource.fieldNames.Nodup)
    (hfresh : resource.tableName ∉ tables.map Sql.Table.name)
    (h : addTable withRelations tables resource = .error fault) :
    tableOf withRelations resource = .error fault := by
  rcases Outcome.bind_eq_error.mp h with htable | ⟨table, htable, hdefine⟩
  · exact htable
  · obtain ⟨first, hfirst, -⟩ := Outcome.mapError_eq_error.mp hdefine
    rw [define_tableOf hnodup hfresh htable] at hfirst
    cases hfirst

/-- Tables are added in the order of the resources. -/
theorem foldlM_addTable_eq_ok (h : resources.foldlM (addTable withRelations) tables = .ok final) :
    ∃ built, final = tables ++ built ∧ resources.mapM (tableOf withRelations) = .ok built := by
  induction resources generalizing tables with
  | nil =>
      rw [List.foldlM_nil] at h
      exact ⟨[], by rw [List.append_nil, Except.ok.inj h], List.mapM_nil⟩
  | cons resource rest ih =>
      rw [List.foldlM_cons] at h
      obtain ⟨next, hadd, hrest⟩ := Outcome.bind_eq_ok.mp h
      obtain ⟨table, htable, rfl⟩ := addTable_eq_ok hadd
      obtain ⟨built, rfl, hbuilt⟩ := ih hrest
      refine ⟨table :: built, by simp, ?_⟩
      rw [List.mapM_cons, htable, hbuilt]
      rfl

/-- Resources with different tables and different fields do not get in each other's way. -/
theorem foldlM_addTable_eq_error (hfields : ∀ resource ∈ resources, resource.fieldNames.Nodup)
    (hnodup : (tables.map Sql.Table.name ++ resources.map ResourceSpec.tableName).Nodup)
    (h : resources.foldlM (addTable withRelations) tables = .error fault) :
    ∃ resource ∈ resources, tableOf withRelations resource = .error fault := by
  induction resources generalizing tables with
  | nil =>
      rw [List.foldlM_nil] at h
      cases h
  | cons resource rest ih =>
      rw [List.forall_mem_cons] at hfields
      rw [List.map_cons] at hnodup
      rw [List.foldlM_cons] at h
      rcases Outcome.bind_eq_error.mp h with hadd | ⟨next, hadd, hrest⟩
      · have hfresh : resource.tableName ∉ tables.map Sql.Table.name := fun hmem =>
          List.disjoint_of_nodup_append hnodup hmem List.mem_cons_self
        exact ⟨resource, List.mem_cons_self, addTable_eq_error hfields.1 hfresh hadd⟩
      · obtain ⟨table, htable, rfl⟩ := addTable_eq_ok hadd
        have hnames : ((tables ++ [table]).map Sql.Table.name ++
            rest.map ResourceSpec.tableName).Nodup := by
          rw [List.map_append, List.append_assoc, List.map_singleton, tableOf_name htable]
          exact hnodup
        obtain ⟨other, hother, hfault⟩ := ih hfields.2 hnames hrest
        exact ⟨other, List.mem_cons_of_mem _ hother, hfault⟩

end Database

theorem buildTables_eq_ok {resources : List ResourceSpec} {tables : List Sql.Table}
    (h : buildTables withRelations resources = .ok tables) :
    resources.mapM (tableOf withRelations) = .ok tables := by
  obtain ⟨built, rfl, hbuilt⟩ := foldlM_addTable_eq_ok h
  exact hbuilt

theorem buildTables_names {resources : List ResourceSpec} {tables : List Sql.Table}
    (h : buildTables withRelations resources = .ok tables) :
    tables.map Sql.Table.name = resources.map ResourceSpec.tableName :=
  Outcome.mapM_map_eq (buildTables_eq_ok h) fun _ _ _ => tableOf_name

end Migration

end ApiScaffold
