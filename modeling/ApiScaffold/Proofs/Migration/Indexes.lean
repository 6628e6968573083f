import Mathlib
import ApiScaffold.Proofs.Migration.Issued
import ApiScaffold.Proofs.Migration.Resolution
import ApiScaffold.Proofs.Sql.IndexScript

/-! The indexes that the scripts of a configuration create, read from the text of these scripts. Each
declared index is created under its own name, so no statement is skipped because an index of its name is
there already, unless that one is the same index. -/

namespace ApiScaffold

namespace ResourceSpec

/-- An index of a resource on its table. -/
def createdIndex (resource : ResourceSpec) (index : IndexSpec) : Sql.CreatedIndex :=
  ⟨resource.tableName, Check.indexName resource index, index.fields, index.unique⟩

theorem isPlain_indexName {resource : ResourceSpec} {index : IndexSpec}
    (h : ∀ name ∈ index.fields, Naming.IsPlain name) : Naming.IsPlain (Check.indexName resource index) := by
  have hmark : Naming.IsPlain (if index.unique then "uidx" else "idx") := by split <;> decide
  have hscore : Naming.IsPlain "_" := by decide
  exact (((hmark.append hscore).append (Naming.isPlain_tableName resource.name)).append hscore).append
    (hscore.intercalate h)

end ResourceSpec

namespace ApiConfig

/-- No name of a field holds a line feed. -/
def LineFree (config : ApiConfig) : Prop :=
  ∀ resource ∈ config.resources, ∀ name ∈ resource.fieldNames, '\n' ∉ name.toList

instance (config : ApiConfig) : Decidable config.LineFree :=
  inferInstanceAs (Decidable (∀ resource ∈ config.resources, ∀ name ∈ resource.fieldNames, _))

/-- The declared indexes in order. -/
def declaredIndexes (config : ApiConfig) : List Sql.CreatedIndex :=
  config.resources.flatMap fun resource => resource.indexes.map resource.createdIndex

variable {config : ApiConfig} {resource : ResourceSpec}

theorem Accepted.isPlain_column (h : config.Accepted) (hfree : config.LineFree)
    (hresource : resource ∈ config.resources) {name : String}
    (hname : name ∈ Check.columnNames resource) : Naming.IsPlain name := by
  rw [Check.columnNames, List.mem_append] at hname
  rcases hname with hfield | hsynthetic
  · have hidentifier := h.isIdentifier_fieldName hresource hfield
    rw [Naming.isPlain_iff]
    intro c hc
    rcases Naming.isNameChar_of_mem hidentifier hc with hchar | rfl
    · exact hchar
    · exact absurd hc (hfree resource hresource name hfield)
  · have hall : ∀ name ∈ serverManaged, Naming.IsPlain name := by decide
    exact hall name (resource.syntheticNames_subset hsynthetic)

theorem Accepted.createdIndex_plain (h : config.Accepted) (hfree : config.LineFree)
    (hresource : resource ∈ config.resources) {index : IndexSpec} (hindex : index ∈ resource.indexes) :
    (resource.createdIndex index).Plain := by
  have hcolumns : ∀ name ∈ index.fields, Naming.IsPlain name := fun name hname =>
    h.isPlain_column hfree hresource (h.mem_columnNames hresource hindex hname)
  exact ⟨ResourceSpec.isPlain_indexName hcolumns, (Naming.isPlain_tableName resource.name), hcolumns⟩

/-- Declared indexes of one name are the same. -/
theorem Accepted.declaredIndex_eq_of_name (h : config.Accepted) {created other : Sql.CreatedIndex}
    (hcreated : created ∈ config.declaredIndexes) (hother : other ∈ config.declaredIndexes)
    (heq : created.index.name = other.index.name) : created = other := by
  obtain ⟨resource, hresource, hin⟩ := List.mem_flatMap.mp hcreated
  obtain ⟨index, hindex, rfl⟩ := List.mem_map.mp hin
  obtain ⟨resource', hresource', hin'⟩ := List.mem_flatMap.mp hother
  obtain ⟨index', hindex', rfl⟩ := List.mem_map.mp hin'
  obtain ⟨htable, rfl⟩ := h.index_eq_of_name hresource hindex hresource' hindex' heq
  have hname : Check.indexName resource index = Check.indexName resource' index := heq
  rw [ResourceSpec.createdIndex, ResourceSpec.createdIndex, htable, hname]

end ApiConfig

namespace Migration

open Sequence

/-- Whether an artifact is a script that creates indexes. -/
def isIndexScript (artifact : Artifact) : Bool :=
  match artifact.detail with
  | .migration .createIndexes _ => true
  | _ => false

/-- The indexes that the scripts among artifacts create. -/
def createdIndexes (artifacts : List Artifact) : Option (List Sql.CreatedIndex) :=
  ((artifacts.filter isIndexScript).mapM fun artifact => Sql.readIndexes artifact.content).map
    List.flatten

variable {config : ApiConfig} {tables : List Sql.Table} {before after : Sequence}

/-- The script of a resource creates its declared indexes. -/
theorem readIndexes_indexScript {resource : ResourceSpec} {table : Sql.Table} {content : String}
    (htable : table.name = resource.tableName)
    (hplain : ∀ index ∈ resource.indexes, (resource.createdIndex index).Plain)
    (h : indexScript resource table = .ok content) :
    Sql.readIndexes content = some (resource.indexes.map resource.createdIndex) := by
  unfold indexScript at h
  split at h
  · cases h
  · obtain ⟨statements, hstatements, hcontent⟩ := Outcome.bind_eq_ok.mp h
    obtain rfl := Except.ok.inj hcontent
    have htexts : statements.map (fun s => s ++ ";") =
        (resource.indexes.map resource.createdIndex).map fun created => created.text ++ ";" := by
      rw [List.map_map]
      apply Outcome.mapM_map_eq hstatements
      intro index hindex statement hstatement
      have htext := Sql.createIndex_eq_ok (Outcome.mapError_eq_ok.mp hstatement)
      have hcreated : (⟨table.name, indexOf table index⟩ : Sql.CreatedIndex) =
          resource.createdIndex index := by
        rw [indexOf, htable]
        rfl
      rw [htext, hcreated, Sql.tidy_text (hplain index hindex)]
      rfl
    have hname : '\n' ∉ " Create indexes for ".toList ++ table.name.toList := by
      have hlabel : '\n' ∉ " Create indexes for ".toList := by decide
      rw [htable, List.mem_append, not_or]
      exact ⟨hlabel, (Naming.isPlain_tableName resource.name).not_mem (by decide)⟩
    have hcomment : Sql.Reading.Whole (("-- Create indexes for " ++ table.name).toList ++ ['\n']) [] := by
      rw [String.toList_append]
      exact Sql.Reading.whole_comment hname
    rw [htexts]
    refine Sql.readIndexes_script hcomment ?_
    intro created hcreated
    obtain ⟨index, hindex, rfl⟩ := List.mem_map.mp hcreated
    exact hplain index hindex

theorem isIndexScript_artifactOf (name text : String) (kind : MigrationKind) (resource : Option String) :
    isIndexScript (artifactOf name text kind resource) = decide (kind = .createIndexes) := by
  cases kind <;> rfl

/-- The scripts of an accepted configuration create its declared indexes. -/
theorem createdIndexes_of_run (h : config.Accepted) (hfree : config.LineFree)
    {artifacts : List Artifact} (hrun : run (migrations config) before = (.ok artifacts, after)) :
    createdIndexes artifacts = some config.declaredIndexes := by
  obtain ⟨tables, creations, indexes, tokens, tokens', between, hbuilt, -, -, -, hlength, hcreations,
    hindexes, rfl⟩ := run_migrations_eq_ok hrun
  have hread : List.Forall₂ (fun artifact created =>
      Sql.readIndexes artifact.content = some created) indexes
        (((indexedTables config tables).zip tokens').map fun entry =>
          entry.1.1.indexes.map entry.1.1.createdIndex) := by
    have hpairs : ∀ entry ∈ (indexedTables config tables).zip tokens',
        entry.1.1 ∈ config.resources ∧ entry.1.2.name = entry.1.1.tableName := by
      rintro ⟨⟨resource, table⟩, token⟩ hentry
      have hpair := List.mem_of_mem_filter (List.of_mem_zip hentry).1
      exact ⟨(List.of_mem_zip hpair).1,
        tableOf_name (Outcome.of_mem_zip (buildTables_eq_ok hbuilt) hpair)⟩
    rw [List.forall₂_map_right_iff]
    refine (((List.forall₂_and_left _ _).mpr ⟨hpairs, hindexes⟩).imp ?_).flip
    rintro entry artifact ⟨⟨hresource, htable⟩, content, hcontent, rfl⟩
    exact readIndexes_indexScript htable
      (fun index hindex => h.createdIndex_plain hfree hresource hindex) hcontent
  have hfilter : (creations ++ indexes).filter isIndexScript = indexes := by
    rw [List.filter_append, filter_isScript isIndexScript_artifactOf hcreations,
      filter_isScript isIndexScript_artifactOf hindexes]
    rfl
  have hresources : ((indexedTables config tables).zip tokens').map (fun entry => entry.1.1) =
      config.resources.filter fun resource => !resource.indexes.isEmpty := by
    rw [← map_fst_indexedTables hbuilt, ← Function.comp_def Prod.fst Prod.fst, ← List.map_map,
      List.map_fst_zip (le_of_eq hlength.symm)]
  have hall : (((indexedTables config tables).zip tokens').map fun entry =>
      entry.1.1.indexes.map entry.1.1.createdIndex).flatten = config.declaredIndexes := by
    rw [← Function.comp_def (fun resource : ResourceSpec => resource.indexes.map resource.createdIndex)
      (fun entry : (ResourceSpec × Sql.Table) × String => entry.1.1), ← List.map_map, hresources,
      ← List.flatMap_def]
    apply flatMap_filter
    intro resource _ hempty
    have hnone : resource.indexes = [] := by simpa using hempty
    rw [hnone, List.map_nil]
  rw [createdIndexes, hfilter, mapM_eq_some_of_forall₂ hread, Option.map_some, hall]

/-- **No index is dropped.** Where no name of a field holds a line feed, the scripts of an accepted
configuration create the declared indexes, each with its table, its fields and its uniqueness, and two
of the same name are the same index. The migrations are only refused for a default or a token that
cannot be written, or for the name of an index that is too long. -/
theorem indexes_kept (h : config.Accepted) (hfree : config.LineFree) (before : Sequence) :
    (∀ created ∈ config.declaredIndexes, ∀ other ∈ config.declaredIndexes,
        created.index.name = other.index.name → created = other) ∧
      ((∃ artifacts after, run (migrations config) before = (.ok artifacts, after) ∧
          createdIndexes artifacts = some config.declaredIndexes) ∨
        ∃ fault after, run (migrations config) before = (.error fault, after) ∧
          (fault = .literal .numberTooLong ∨
            (∃ created ∈ config.declaredIndexes, Sql.nameLimit < created.index.name.length ∧
              fault = .sql (.nameTooLong created.index.name)) ∨
            ∃ reason, fault = .width reason)) := by
  refine ⟨fun created hcreated other hother heq =>
    h.declaredIndex_eq_of_name hcreated hother heq, ?_⟩
  cases hrun : run (migrations config) before with
  | mk outcome after =>
      cases outcome with
      | ok artifacts => exact Or.inl ⟨artifacts, after, rfl, createdIndexes_of_run h hfree hrun⟩
      | error fault =>
          refine Or.inr ⟨fault, after, rfl, ?_⟩
          rcases run_migrations_refused h hrun with hlong | hname | ⟨sequence, htoken⟩
          · exact Or.inl hlong
          · obtain ⟨resource, hresource, index, hindex, hlong, hfault⟩ := hname
            have hdeclared : resource.createdIndex index ∈ config.declaredIndexes :=
              List.mem_flatMap_of_mem hresource (List.mem_map_of_mem hindex)
            exact Or.inr (Or.inl ⟨_, hdeclared, hlong, hfault⟩)
          · rcases token_eq_error htoken with hlong | hwidth
            · exact Or.inl hlong
            · exact Or.inr (Or.inr hwidth)

/-- In a blog the index of posts is created, on the table and the columns that are declared. -/
theorem indexes_kept_blog :
    Blog.config.Accepted ∧ Blog.config.LineFree ∧
      ∃ artifacts after, run (migrations Blog.config) ⟨"202403010930", 1, 4, []⟩ =
          (.ok artifacts, after) ∧
        createdIndexes artifacts = some
          [⟨"posts", "idx_posts_author_createdAt", ["author", "createdAt"], false⟩] := by
  have hfree : Blog.config.LineFree := by decide
  have hdeclared : Blog.config.declaredIndexes =
      [⟨"posts", "idx_posts_author_createdAt", ["author", "createdAt"], false⟩] := by
    decide +kernel
  have hok : (run (migrations Blog.config) ⟨"202403010930", 1, 4, []⟩).1.isOk = true := by
    decide +kernel
  obtain ⟨-, hkept | ⟨fault, after, hrun, -⟩⟩ :=
    indexes_kept Blog.accepted hfree ⟨"202403010930", 1, 4, []⟩
  · rw [hdeclared] at hkept
    exact ⟨Blog.accepted, hfree, hkept⟩
  · rw [hrun] at hok
    cases hok

/-- Notes with a field whose name ends in a line feed. -/
def notes : ApiConfig :=
  { name := "Notes"
    resources := [
      { name := "Note"
        fields := [{ name := "a", type := .string }, { name := "b\n", type := .string },
          { name := "a_b", type := .string }]
        indexes := [⟨["a", "b\n"], false⟩, ⟨["a_b"], false⟩] }] }

/-- The line feed tells the names of two indexes apart in the checks, but not in the scripts: the second
statement is skipped, because an index of its name is there already. -/
theorem indexes_dropped_notes :
    notes.Accepted ∧
      (run (migrations notes) ⟨"202403010930", 1, 4, []⟩).1.toOption.bind createdIndexes = some
        [⟨"notes", "idx_notes_a_b", ["a", "b"], false⟩, ⟨"notes", "idx_notes_a_b", ["a_b"], false⟩] := by
  decide +kernel

end Migration

end ApiScaffold
