import Mathlib
import ApiScaffold.Proofs.Migration.Indexes
import ApiScaffold.Proofs.Migration.StoredDefaults
import ApiScaffold.Proofs.Migration.Success
import ApiScaffold.Proofs.Sql.ScriptColumns

/-! Names that a database does not tell apart. It compares them whatever the case of their letters is, and
the checks compare them as they are written. So the columns of a table and the indexes of a database stay
apart exactly if the declared names do without their case. -/

namespace ApiScaffold

/-- A name as a database compares it: the case of its letters does not count. -/
def Sql.caseless (name : String) : List Char := name.toList.map Char.toLower

/-- Names that differ without their case wherever they differ: the columns of a resource among themselves,
and all indexes. -/
structure ApiConfig.CaseApart (config : ApiConfig) : Prop where
  columns : ∀ resource ∈ config.resources, ∀ name ∈ Check.columnNames resource,
    ∀ other ∈ Check.columnNames resource, Sql.caseless name = Sql.caseless other → name = other
  indexes : ∀ resource ∈ config.resources, ∀ index ∈ resource.indexes, ∀ other ∈ config.resources,
    ∀ otherIndex ∈ other.indexes,
      Sql.caseless (Check.indexName resource index) = Sql.caseless (Check.indexName other otherIndex) →
        Check.indexName resource index = Check.indexName other otherIndex

instance (config : ApiConfig) : Decidable config.CaseApart :=
  decidable_of_iff (_ ∧ _) ⟨fun ⟨columns, indexes⟩ => ⟨columns, indexes⟩,
    fun ⟨columns, indexes⟩ => ⟨columns, indexes⟩⟩

namespace Migration

open Sequence

/-- Whether an artifact is a script that creates a table. -/
def isTableScript (artifact : Artifact) : Bool :=
  match artifact.detail with
  | .migration .createTable _ => true
  | _ => false

theorem isTableScript_artifactOf (name text : String) (kind : MigrationKind) (resource : Option String) :
    isTableScript (artifactOf name text kind resource) = decide (kind = .createTable) := by
  cases kind <;> rfl

/-- The columns of the tables that the scripts among artifacts create. -/
def createdColumns (artifacts : List Artifact) : List (List String) :=
  (artifacts.filter isTableScript).map fun artifact => Sql.scriptColumns artifact.content

variable {config : ApiConfig} {before after : Sequence} {artifacts : List Artifact}

/-- The script of a resource with plain names creates the columns of its table. -/
theorem scriptColumns_tableText {withRelations : Bool} {resource : ResourceSpec} {table : Sql.Table}
    (h : tableOf withRelations resource = .ok table)
    (hplain : ∀ name ∈ resource.fieldNames, Naming.IsPlain name) :
    Sql.scriptColumns (tableText table) = resource.tableColumns := by
  have hsimple := isSimple_tableOf h hplain
  rw [hsimple.scriptColumns (isScript_tableText hsimple.name), tableOf_columnNames h]

/-- The scripts of an accepted configuration create the columns of its tables. -/
theorem createdColumns_of_run (h : config.Accepted) (hfree : config.LineFree)
    (hrun : run (migrations config) before = (.ok artifacts, after)) :
    createdColumns artifacts = config.resources.map ResourceSpec.tableColumns := by
  obtain ⟨tables, creations, indexes, tokens, tokens', between, hbuilt, -, -, hlength, -, hcreations,
    hindexes, rfl⟩ := run_migrations_eq_ok hrun
  have hfilter : (creations ++ indexes).filter isTableScript = creations := by
    rw [List.filter_append, filter_isScript isTableScript_artifactOf hcreations,
      filter_isScript isTableScript_artifactOf hindexes]
    exact List.append_nil creations
  have hcolumns : creations.map (fun artifact => Sql.scriptColumns artifact.content) =
      ((resourceTables config tables).zip tokens).map fun entry => entry.1.1.tableColumns := by
    refine map_eq_map_of_forall₂ hcreations ?_
    rintro ⟨⟨resource, table⟩, token⟩ hentry artifact ⟨text, htext, rfl⟩
    have hpair := (List.of_mem_zip hentry).1
    have hplain : ∀ name ∈ resource.fieldNames, Naming.IsPlain name := fun name hname =>
      h.isPlain_column hfree (List.of_mem_zip hpair).1 (List.mem_append_left _ hname)
    have htable := Outcome.of_mem_zip (buildTables_eq_ok hbuilt) hpair
    rw [show (artifactOf _ text _ _).content = text from rfl, tableScript_eq_ok htext]
    exact scriptColumns_tableText htable hplain
  rw [createdColumns, hfilter, hcolumns, ← Function.comp_def ResourceSpec.tableColumns
      (fun entry : (ResourceSpec × Sql.Table) × String => entry.1.1), ← List.map_map,
    ← Function.comp_def Prod.fst Prod.fst, ← List.map_map, List.map_fst_zip (le_of_eq hlength.symm),
    map_fst_resourceTables hbuilt]

/-- Columns differ without their case exactly if the names of the resource do. -/
theorem columns_apart_iff (h : config.Accepted) :
    (∀ columns ∈ config.resources.map ResourceSpec.tableColumns, (columns.map Sql.caseless).Nodup) ↔
      ∀ resource ∈ config.resources, ∀ name ∈ Check.columnNames resource,
        ∀ other ∈ Check.columnNames resource, Sql.caseless name = Sql.caseless other → name = other := by
  have hmem : ∀ (resource : ResourceSpec) (name : String),
      name ∈ resource.tableColumns ↔ name ∈ Check.columnNames resource := by
    intro resource name
    rw [ResourceSpec.mem_tableColumns, Check.columnNames, List.mem_append]
  rw [List.forall_mem_map]
  refine forall₂_congr fun resource hresource => ?_
  rw [List.nodup_map_iff_inj_on (ResourceSpec.tableColumns_nodup (h.fieldNames_nodup hresource))]
  simp only [hmem]

/-- Indexes of one name without its case are the same exactly if they have one name with it. -/
theorem indexes_apart_iff (h : config.Accepted) :
    (∀ created ∈ config.declaredIndexes, ∀ other ∈ config.declaredIndexes,
      Sql.caseless created.index.name = Sql.caseless other.index.name →
        created.table = other.table ∧ created.index.columns = other.index.columns ∧
          created.index.unique = other.index.unique) ↔
      ∀ resource ∈ config.resources, ∀ index ∈ resource.indexes, ∀ other ∈ config.resources,
        ∀ otherIndex ∈ other.indexes,
          Sql.caseless (Check.indexName resource index) = Sql.caseless (Check.indexName other otherIndex) →
            Check.indexName resource index = Check.indexName other otherIndex := by
  constructor
  · intro hsame resource hresource index hindex other hother otherIndex hotherIndex heq
    have hcreated : resource.createdIndex index ∈ config.declaredIndexes :=
      List.mem_flatMap_of_mem hresource (List.mem_map_of_mem hindex)
    have hcreated' : other.createdIndex otherIndex ∈ config.declaredIndexes :=
      List.mem_flatMap_of_mem hother (List.mem_map_of_mem hotherIndex)
    obtain ⟨htable, hcolumns, hunique⟩ := hsame _ hcreated _ hcreated' heq
    have hfields : index.fields = otherIndex.fields := hcolumns
    have htables : resource.tableName = other.tableName := htable
    have huniques : index.unique = otherIndex.unique := hunique
    rw [Check.indexName, Check.indexName, hfields, htables, huniques]
  · intro hnames created hcreated other hother heq
    obtain ⟨resource, hresource, hin⟩ := List.mem_flatMap.mp hcreated
    obtain ⟨index, hindex, rfl⟩ := List.mem_map.mp hin
    obtain ⟨resource', hresource', hin'⟩ := List.mem_flatMap.mp hother
    obtain ⟨index', hindex', rfl⟩ := List.mem_map.mp hin'
    have hname := hnames resource hresource index hindex resource' hresource' index' hindex' heq
    rw [h.declaredIndex_eq_of_name hcreated hother hname]
    exact ⟨rfl, rfl, rfl⟩

/-- **Exactly when a database tells the generated objects apart.** Where no name of a field holds a line
feed, the columns of each created table differ without the case of their letters, and indexes whose names do
not are on one table, over the same columns and of one uniqueness, exactly if the declared names differ
without their case wherever they differ. The migrations are there if defaults, names and tokens can be
written. -/
theorem objects_apart_iff (h : config.Accepted) (hfree : config.LineFree) (before : Sequence) :
    ((∃ artifacts after, run (migrations config) before = (.ok artifacts, after)) ↔
      DefaultsWritable config ∧ IndexNamesFit config ∧ before.CanIssue (scripts config).length) ∧
    ∀ artifacts after, run (migrations config) before = (.ok artifacts, after) →
      ∃ indexes, createdIndexes artifacts = some indexes ∧
        (((∀ columns ∈ createdColumns artifacts, (columns.map Sql.caseless).Nodup) ∧
          ∀ created ∈ indexes, ∀ other ∈ indexes,
            Sql.caseless created.index.name = Sql.caseless other.index.name →
              created.table = other.table ∧ created.index.columns = other.index.columns ∧
                created.index.unique = other.index.unique) ↔ config.CaseApart) := by
  refine ⟨exists_run_migrations_iff h, fun artifacts after hrun => ?_⟩
  refine ⟨config.declaredIndexes, createdIndexes_of_run h hfree hrun, ?_⟩
  rw [createdColumns_of_run h hfree hrun, columns_apart_iff h, indexes_apart_iff h]
  exact ⟨fun ⟨columns, indexes⟩ => ⟨columns, indexes⟩, fun ⟨columns, indexes⟩ => ⟨columns, indexes⟩⟩

/-- The tables and the index of a blog are told apart. -/
theorem objects_apart_blog :
    Blog.config.Accepted ∧ Blog.config.LineFree ∧
      ∃ artifacts after, run (migrations Blog.config) { stamp := "202403010930" } = (.ok artifacts, after) ∧
        ∀ columns ∈ createdColumns artifacts, (columns.map Sql.caseless).Nodup := by
  have hfree : Blog.config.LineFree := by decide
  have happly : Blog.config.CaseApart := by decide +kernel
  have hok : (run (migrations Blog.config) { stamp := "202403010930" }).1.isOk = true := by decide +kernel
  obtain ⟨-, hevery⟩ := objects_apart_iff Blog.accepted hfree { stamp := "202403010930" }
  obtain ⟨artifacts, after, hrun⟩ := exists_run_eq_ok hok
  obtain ⟨indexes, -, hiff⟩ := hevery artifacts after hrun
  exact ⟨Blog.accepted, hfree, artifacts, after, hrun, (hiff.mpr happly).1⟩

/-- Notes with two fields that differ in the case of one letter. -/
def titles : ApiConfig where
  name := "Notes"
  resources := [
    { name := "Note", fields := [{ name := "title", type := .string }, { name := "Title", type := .string }] }]

/-- Notes with two indexes whose names differ in the case of one letter, over columns that do not. -/
def marks : ApiConfig where
  name := "Notes"
  resources := [
    { name := "Note"
      fields := [{ name := "a", type := .string }, { name := "b", type := .string }, { name := "a_B", type := .string }]
      indexes := [⟨["a", "b"], false⟩, ⟨["a_B"], false⟩] }]

/-- The checks let pass a table that cannot be created, as two of its columns have one name, and an index
that never is, as its statement is skipped for another one of its name. -/
theorem objects_clash :
    (titles.Accepted ∧ ∃ artifacts after,
      run (migrations titles) { stamp := "202403010930" } = (.ok artifacts, after) ∧
        ∃ columns ∈ createdColumns artifacts, ¬(columns.map Sql.caseless).Nodup) ∧
    (marks.Accepted ∧ ∃ artifacts after,
      run (migrations marks) { stamp := "202403010930" } = (.ok artifacts, after) ∧
        ∃ indexes, createdIndexes artifacts = some indexes ∧ ∃ created ∈ indexes, ∃ other ∈ indexes,
          Sql.caseless created.index.name = Sql.caseless other.index.name ∧
            created.index.columns ≠ other.index.columns) := by
  have htitles : titles.Accepted := by decide +kernel
  have hmarks : marks.Accepted := by decide +kernel
  have hok : (run (migrations titles) { stamp := "202403010930" }).1.isOk = true := by decide +kernel
  have hok' : (run (migrations marks) { stamp := "202403010930" }).1.isOk = true := by decide +kernel
  obtain ⟨artifacts, after, hrun⟩ := exists_run_eq_ok hok
  obtain ⟨artifacts', after', hrun'⟩ := exists_run_eq_ok hok'
  have hcolumns := createdColumns_of_run htitles (by decide) hrun
  have hindexes := createdIndexes_of_run hmarks (by decide) hrun'
  refine ⟨⟨htitles, artifacts, after, hrun, ?_⟩, hmarks, artifacts', after', hrun', _, hindexes, ?_⟩
  · rw [hcolumns]
    exact ⟨["id", "title", "Title", "createdAt", "updatedAt"], by decide, by decide⟩
  · exact ⟨⟨"notes", "idx_notes_a_b", ["a", "b"], false⟩, by decide +kernel,
      ⟨"notes", "idx_notes_a_B", ["a_B"], false⟩, by decide +kernel, by decide, by decide⟩

end Migration

end ApiScaffold
