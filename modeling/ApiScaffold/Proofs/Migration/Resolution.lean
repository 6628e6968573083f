import Mathlib
import ApiScaffold.Proofs.Check.Fields
import ApiScaffold.Proofs.Check.Links
import ApiScaffold.Proofs.Issuing
import ApiScaffold.Proofs.Lists
import ApiScaffold.Proofs.Migration.Table

/-! What the migrations of an accepted configuration look up is there. Relations lead to a column of
exactly one table, indexes to columns of their own, and names of tables and columns do not clash; so
no migration fails for what is missing or declared twice. -/

namespace ApiScaffold

namespace Sql

/-- A reference leads to a column of the one table of its name. -/
def Resolves (tables : List Table) (reference : Reference) : Prop :=
  ∃ table, (tables.filter fun other => other.name == reference.table) = [table] ∧
    reference.column ∈ table.columnNames

theorem exists_resolve {tables : List Table} {table : Table} {column : Column}
    {reference : Reference} (h : Resolves tables reference) :
    ∃ clause, resolve tables table column reference = .ok clause := by
  obtain ⟨found, hfilter, hcolumn⟩ := h
  have hfind : tables.find? (fun other => other.name == reference.table) = some found := by
    rw [← List.head?_filter, hfilter]
    rfl
  obtain ⟨target, -, htarget⟩ := Table.exists_column hcolumn
  simp only [resolve, hfind, htarget]
  exact ⟨_, rfl⟩

theorem createTable_ne_error {tables : List Table} {table : Table} {fault : Fault}
    (h : ∀ column ∈ table.columns, ∀ reference ∈ column.reference, Resolves tables reference) :
    createTable tables table ≠ .error fault := by
  intro hfault
  unfold createTable tableParts at hfault
  rcases Outcome.bind_eq_error.mp hfault with hparts | ⟨_, -, hpure⟩
  · rcases Outcome.bind_eq_error.mp hparts with hconstraints | ⟨_, -, hpure⟩
    · obtain ⟨column, hcolumn, hconstraint⟩ := Outcome.mapM_eq_error hconstraints
      unfold columnConstraints at hconstraint
      rcases Outcome.bind_eq_error.mp hconstraint with hreferences | ⟨_, -, hpure⟩
      · obtain ⟨reference, hreference, hresolve⟩ := Outcome.mapM_eq_error hreferences
        obtain ⟨clause, hclause⟩ :=
          @exists_resolve tables table column _ (h column hcolumn reference (by simpa using hreference))
        rw [hclause] at hresolve
        cases hresolve
      · cases hpure
    · cases hpure
  · cases hpure

/-- Over columns of the table, only the length of the name of an index is in the way. -/
theorem createIndex_eq_error {table : Table} {index : Index} {fault : Fault}
    (hcolumns : ∀ name ∈ index.columns, name ∈ table.columnNames)
    (h : createIndex table index = .error fault) :
    nameLimit < index.name.length ∧ fault = .nameTooLong index.name := by
  have hfind : (index.columns.find? fun name => (table.column? name).isNone) = none := by
    rw [List.find?_eq_none]
    intro name hname
    obtain ⟨column, -, hcolumn⟩ := Table.exists_column (hcolumns name hname)
    simp [hcolumn]
  simp only [createIndex, hfind] at h
  split at h
  · rename_i hlong
    exact ⟨hlong, (Except.error.inj h).symm⟩
  · cases h

end Sql

namespace ApiConfig

/-- A relation leads to a column of the table that exactly one resource makes. -/
def Resolves (config : ApiConfig) (target : RelationTarget) : Prop :=
  ∃ owner, (config.resources.filter fun resource =>
      resource.tableName == (Sql.referenceOf target).table) = [owner] ∧
    (Sql.referenceOf target).column ∈ owner.tableColumns

/-- Everything that tables and indexes look up is there, and nothing is there twice. -/
structure Resolved (config : ApiConfig) : Prop where
  relations : ∀ resource ∈ config.resources, ∀ field ∈ resource.fields, ∀ text,
    field.relation = some text → ∃ target, field.target? = some target ∧ config.Resolves target
  indexes : ∀ resource ∈ config.resources, ∀ index ∈ resource.indexes, ∀ name ∈ index.fields,
    name ∈ resource.tableColumns
  columns_nodup : ∀ resource ∈ config.resources, resource.tableColumns.Nodup
  tables_nodup : (config.resources.map ResourceSpec.tableName).Nodup
  fields_mapped : ∀ resource ∈ config.resources, ∀ field ∈ resource.fields,
    ∃ mapping, Schema.mapField field = .ok mapping

theorem Accepted.resolved {config : ApiConfig} (h : config.Accepted) : config.Resolved where
  relations resource hresource field hfield text hrelation := by
    obtain ⟨target, htarget, owner, howner, hcolumn⟩ := h.exists_target hresource hfield hrelation
    have hname : owner.name = target.resource := by simpa using List.find?_some howner
    have htable : (Sql.referenceOf target).table = owner.tableName := by
      rw [Sql.referenceOf, ResourceSpec.tableName, hname]
    refine ⟨target, htarget, owner, ?_, ?_⟩
    · rw [htable]
      exact filter_eq_singleton h.tableNames_nodup (List.mem_of_find?_eq_some howner)
    · rw [ResourceSpec.mem_tableColumns]
      rcases hcolumn with hkey | hfield
      · right
        change target.field ∈ primaryKey :: owner.timestamps.names
        rw [hkey]
        exact List.mem_cons_self
      · exact Or.inl hfield
  indexes resource hresource index hindex name hname := by
    rw [ResourceSpec.mem_tableColumns, ← List.mem_append]
    exact h.mem_columnNames hresource hindex hname
  columns_nodup resource hresource := ResourceSpec.tableColumns_nodup (h.fieldNames_nodup hresource)
  tables_nodup := h.tableNames_nodup
  fields_mapped _ hresource _ hfield := h.exists_mapField hresource hfield

end ApiConfig

namespace Migration

open Sequence

variable {config : ApiConfig} {tables : List Sql.Table}

/-- The references of the built tables lead to columns of the built tables. -/
theorem reference_resolves (h : config.Accepted)
    (hbuilt : buildTables true config.resources = .ok tables) {table : Sql.Table}
    (htable : table ∈ tables) {column : Sql.Column} (hcolumn : column ∈ table.columns)
    {reference : Sql.Reference} (hreference : column.reference = some reference) :
    Sql.Resolves tables reference := by
  obtain ⟨resource, hresource, hof⟩ :=
    Outcome.exists_of_mem_results (buildTables_eq_ok hbuilt) htable
  obtain ⟨columns, hcolumns, rfl⟩ := tableOf_eq_ok.mp hof
  simp only [List.cons_append, List.mem_cons, List.mem_append, List.mem_map] at hcolumn
  rcases hcolumn with rfl | hmade | ⟨time, -, rfl⟩
  · cases hreference
  · obtain ⟨field, hfield, hcolumn⟩ := Outcome.exists_of_mem_results hcolumns hmade
    obtain ⟨mapping, default, -, -, rfl⟩ := fieldColumn_eq_ok.mp hcolumn
    obtain ⟨target, htarget, rfl⟩ := Option.map_eq_some_iff.mp hreference
    obtain ⟨text, hrelation, -⟩ := Option.bind_eq_some_iff.mp htarget
    obtain ⟨target', htarget', owner, howner, hmem⟩ :=
      h.resolved.relations resource hresource field (ResourceSpec.mem_storedFields.mp hfield).1
        text hrelation
    obtain rfl : target' = target := Option.some.inj (htarget'.symm.trans htarget)
    have howner' : owner ∈ config.resources ∧
        owner.tableName = (Sql.referenceOf target').table := by
      have hin := List.mem_filter.mp (howner ▸ List.mem_singleton_self owner)
      exact ⟨hin.1, beq_iff_eq.mp hin.2⟩
    obtain ⟨found, hfound, hofOwner⟩ :=
      Outcome.exists_of_mem_mapM (buildTables_eq_ok hbuilt) howner'.1
    refine ⟨found, ?_, ?_⟩
    · rw [← howner'.2, ← tableOf_name hofOwner]
      apply filter_eq_singleton _ hfound
      rw [buildTables_names hbuilt]
      exact h.tableNames_nodup
    · rw [tableOf_columnNames hofOwner]
      exact hmem
  · cases hreference

/-- The tables of an accepted configuration are only kept from being built by a default that cannot
be written. -/
theorem buildTables_eq_error (h : config.Accepted) {fault : GenerationFault}
    (hfault : buildTables true config.resources = .error fault) :
    fault = .literal .numberTooLong := by
  obtain ⟨resource, hresource, hof⟩ := foldlM_addTable_eq_error
    (fun resource hresource => h.fieldNames_nodup hresource)
    (by rw [List.map_nil, List.nil_append]; exact h.tableNames_nodup) hfault
  exact (tableOf_eq_error (h.resolved.fields_mapped resource hresource) hof).2

theorem indexScript_eq_error {resource : ResourceSpec} {table : Sql.Table}
    {fault : GenerationFault} (hsome : resource.indexes.isEmpty = false)
    (hcolumns : ∀ index ∈ resource.indexes, ∀ name ∈ index.fields, name ∈ table.columnNames)
    (h : indexScript resource table = .error fault) :
    ∃ index ∈ resource.indexes, Sql.nameLimit < (indexOf table index).name.length ∧
      fault = .sql (.nameTooLong (indexOf table index).name) := by
  unfold indexScript at h
  rw [hsome] at h
  rcases Outcome.bind_eq_error.mp h with hindexes | ⟨_, -, hpure⟩
  · obtain ⟨index, hindex, hcreate⟩ := Outcome.mapM_eq_error hindexes
    obtain ⟨first, hfirst, rfl⟩ := Outcome.mapError_eq_error.mp hcreate
    obtain ⟨hlong, hname⟩ := Sql.createIndex_eq_error (hcolumns index hindex) hfirst
    exact ⟨index, hindex, hlong, congrArg _ hname⟩
  · cases hpure

section Runs

variable {resource : ResourceSpec} {table : Sql.Table} {fault : GenerationFault}
  {before after : Sequence}

/-- Where its references resolve, a table can be created unless there is no token for it. -/
theorem run_createTable_eq_error
    (hresolves : ∀ column ∈ table.columns, ∀ reference ∈ column.reference,
      Sql.Resolves tables reference)
    (h : run (createTable tables resource table) before = (.error fault, after)) :
    before.token = .error fault := by
  rcases run_issue_eq_error h with hscript | htoken
  · rw [tableScript, Outcome.map_eq_error] at hscript
    obtain ⟨first, hfirst, -⟩ := Outcome.mapError_eq_error.mp hscript
    exact absurd hfirst (Sql.createTable_ne_error hresolves)
  · exact htoken

/-- Indexes on columns of their table can be created unless a name is too long or there is no token
for them. -/
theorem run_createIndexes_eq_error (hsome : resource.indexes.isEmpty = false)
    (hcolumns : ∀ index ∈ resource.indexes, ∀ name ∈ index.fields, name ∈ table.columnNames)
    (h : run (createIndexes resource table) before = (.error fault, after)) :
    (∃ index ∈ resource.indexes, Sql.nameLimit < (indexOf table index).name.length ∧
      fault = .sql (.nameTooLong (indexOf table index).name)) ∨ before.token = .error fault := by
  rcases run_issue_eq_error h with hscript | htoken
  · exact Or.inl (indexScript_eq_error hsome hcolumns hscript)
  · exact Or.inr htoken

/-- The faults that are left for the migrations of an accepted configuration: a default or a token that
cannot be written, and the name of a declared index that is too long. -/
theorem run_migrations_refused (h : config.Accepted)
    (hrun : run (migrations config) before = (.error fault, after)) :
    fault = .literal .numberTooLong ∨
      (∃ resource ∈ config.resources, ∃ index ∈ resource.indexes,
        Sql.nameLimit < (Check.indexName resource index).length ∧
          fault = .sql (.nameTooLong (Check.indexName resource index))) ∨
      ∃ sequence : Sequence, sequence.token = .error fault := by
  unfold migrations at hrun
  rw [run_bind, run_ofExcept] at hrun
  cases hbuilt : buildTables true config.resources with
  | error first =>
      rw [hbuilt] at hrun
      obtain ⟨hfault, -⟩ := Prod.mk.inj hrun
      exact Or.inl ((Except.error.inj hfault).symm.trans (buildTables_eq_error h hbuilt))
  | ok tables =>
      simp only [hbuilt] at hrun
      right
      rcases run_bind_eq_error.mp hrun with hcreations | ⟨creations, between, -, hrun⟩
      · obtain ⟨⟨resource, table⟩, hpair, start, stop, hcreate⟩ := run_mapM_eq_error hcreations
        have htable : table ∈ tables := (List.of_mem_zip hpair).2
        have htoken := run_createTable_eq_error
          (fun column hcolumn reference hreference =>
            reference_resolves h hbuilt htable hcolumn hreference) hcreate
        exact Or.inr ⟨start, htoken⟩
      · rcases run_bind_eq_error.mp hrun with hindexes | ⟨indexes, last, -, hpure⟩
        · obtain ⟨⟨resource, table⟩, hpair, start, stop, hcreate⟩ := run_mapM_eq_error hindexes
          obtain ⟨hpair, hsome⟩ := List.mem_filter.mp hpair
          have hresource : resource ∈ config.resources := (List.of_mem_zip hpair).1
          have hof := Outcome.of_mem_zip (buildTables_eq_ok hbuilt) hpair
          have hcolumns := h.resolved.indexes resource hresource
          rw [← tableOf_columnNames hof] at hcolumns
          rcases run_createIndexes_eq_error (by simpa using hsome) hcolumns hcreate with
            ⟨index, hindex, hlong, hname⟩ | htoken
          · rw [indexOf, tableOf_name hof] at hlong hname
            exact Or.inl ⟨resource, hresource, index, hindex, hlong, hname⟩
          · exact Or.inr ⟨start, htoken⟩
        · rw [run_pure] at hpure
          cases hpure

theorem run_migrations_eq_error (h : config.Accepted)
    (hrun : run (migrations config) before = (.error fault, after)) :
    fault = .literal .numberTooLong ∨ (∃ name, fault = .sql (.nameTooLong name)) ∨
      ∃ sequence : Sequence, sequence.token = .error fault :=
  (run_migrations_refused h hrun).imp id
    (Or.imp (fun ⟨_, _, _, _, _, hname⟩ => ⟨_, hname⟩) id)

end Runs

/-- **Migrations find everything they look up.** In an accepted configuration every relation leads to
a column of the table of exactly one resource, every index to columns of its own table, and neither
tables nor columns nor fields clash. So the only faults are a default or a token that cannot be
written, and the name of an index that is too long. -/
theorem migrations_resolved (h : config.Accepted) :
    config.Resolved ∧
      (∀ withRelations, ∀ resource ∈ config.resources, ∀ table,
        tableOf withRelations resource = .ok table →
          table.name = resource.tableName ∧ table.columnNames = resource.tableColumns) ∧
      (∀ tables, buildTables true config.resources = .ok tables →
        config.resources.mapM (tableOf true) = .ok tables ∧
          ∀ table ∈ tables, ∀ column ∈ table.columns, ∀ reference ∈ column.reference,
            Sql.Resolves tables reference) ∧
      ∀ before fault after, run (migrations config) before = (.error fault, after) →
        fault = .literal .numberTooLong ∨ (∃ name, fault = .sql (.nameTooLong name)) ∨
          ∃ reason, fault = .width reason := by
  refine ⟨h.resolved, ?_, ?_, ?_⟩
  · intro withRelations resource hresource table hof
    exact ⟨tableOf_name hof, tableOf_columnNames hof⟩
  · intro tables hbuilt
    refine ⟨buildTables_eq_ok hbuilt, ?_⟩
    intro table htable column hcolumn reference hreference
    exact reference_resolves h hbuilt htable hcolumn hreference
  · intro before fault after hrun
    rcases run_migrations_eq_error h hrun with hlong | hname | ⟨sequence, htoken⟩
    · exact Or.inl hlong
    · exact Or.inr (Or.inl hname)
    · rcases token_eq_error htoken with hlong | hwidth
      · exact Or.inl hlong
      · exact Or.inr (Or.inr hwidth)

/-- In a blog the relation of a post to its author resolves, and nothing is missing in any run. -/
theorem migrations_resolved_blog :
    Blog.config.Accepted ∧ Blog.config.Resolved ∧
      (∃ target, Blog.authorField.target? = some target ∧ Blog.config.Resolves target) ∧
      ∀ before fault after, run (migrations Blog.config) before = (.error fault, after) →
        fault = .literal .numberTooLong ∨ (∃ name, fault = .sql (.nameTooLong name)) ∨
          ∃ reason, fault = .width reason := by
  obtain ⟨hresolved, -, -, hfaults⟩ := migrations_resolved Blog.accepted
  have hrelation := hresolved.relations Blog.post (by decide) Blog.authorField (by decide)
    "Author.id" rfl
  exact ⟨Blog.accepted, hresolved, hrelation, hfaults⟩

end Migration

end ApiScaffold
