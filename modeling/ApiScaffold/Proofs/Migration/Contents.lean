import Mathlib
import ApiScaffold.Proofs.Migration.Issued
import ApiScaffold.Proofs.Sql.Definition

/-! What the migrations of one resource say. The tables of all resources are in one database and share
one sequence of tokens, but apart from its token a script depends on its resource alone. -/

namespace ApiScaffold.Migration

open Sequence

/-- The script that creates a table. -/
def tableText (table : Sql.Table) : String :=
  s!"-- Create {table.name} table\n{table.statement};\n"

theorem tableScript_eq_ok {tables : List Sql.Table} {table : Sql.Table} {text : String}
    (h : tableScript tables table = .ok text) : text = tableText table := by
  obtain ⟨ddl, hddl, rfl⟩ := Outcome.map_eq_ok.mp h
  rw [Sql.createTable_eq_ok (Outcome.mapError_eq_ok.mp hddl), tableText]

/-- The keys and contents of the migrations of a resource: the script of its table, and that of its
indexes if it has some. -/
def contents (resource : ResourceSpec) : Except GenerationFault (List (String × String)) := do
  let table ← tableOf true resource
  let created := (scriptKey (resource, .createTable), tableText table)
  if resource.indexes.isEmpty then return [created]
  else do
    let indexes ← indexScript resource table
    return [created, (scriptKey (resource, .createIndexes), indexes)]

theorem contents_of_isEmpty {resource : ResourceSpec} {table : Sql.Table}
    (hof : tableOf true resource = .ok table) (hnone : resource.indexes.isEmpty = true) :
    contents resource = .ok [(scriptKey (resource, .createTable), tableText table)] := by
  rw [contents, hof, hnone]
  rfl

theorem contents_of_indexes {resource : ResourceSpec} {table : Sql.Table} {indexes : String}
    (hof : tableOf true resource = .ok table) (hsome : resource.indexes.isEmpty = false)
    (hindexes : indexScript resource table = .ok indexes) :
    contents resource = .ok [(scriptKey (resource, .createTable), tableText table),
      (scriptKey (resource, .createIndexes), indexes)] := by
  rw [contents, hof, hsome]
  change (indexScript resource table >>= _) = _
  rw [hindexes]
  rfl

/-- The migrations of a resource have one key each. -/
theorem keys_of_contents {resource : ResourceSpec} {entries : List (String × String)}
    (h : contents resource = .ok entries) :
    entries.map Prod.fst = scriptKey (resource, .createTable) ::
      if resource.indexes.isEmpty then [] else [scriptKey (resource, .createIndexes)] := by
  obtain ⟨table, -, h⟩ := Outcome.bind_eq_ok.mp h
  cases hindexes : resource.indexes.isEmpty with
  | true =>
      rw [hindexes] at h
      rw [← Except.ok.inj h]
      rfl
  | false =>
      rw [hindexes] at h
      obtain ⟨indexes, -, h⟩ := Outcome.bind_eq_ok.mp h
      rw [← Except.ok.inj h]
      rfl

/-! ### Scripts of one resource among all -/

section Selected

variable {kind : MigrationKind} {content : ResourceSpec × Sql.Table → Except GenerationFault String}
  {pairs : List (ResourceSpec × Sql.Table)} {tokens : List String} {artifacts : List Artifact}
  {name : String}

theorem IsScript.owner {entry : (ResourceSpec × Sql.Table) × String} {artifact : Artifact}
    (h : IsScript kind content entry artifact) : artifact.owner? = some entry.1.1.name := by
  obtain ⟨text, -, rfl⟩ := h
  rfl

theorem IsScript.key {entry : (ResourceSpec × Sql.Table) × String} {artifact : Artifact}
    (h : IsScript kind content entry artifact) (hname : entry.1.1.name ≠ "") :
    artifact.key = scriptKey (entry.1.1, kind) := by
  obtain ⟨text, -, rfl⟩ := h
  exact @IsIssued.key ((entry.1.1, kind), entry.2) _ ⟨rfl, rfl⟩ hname

/-- Among scripts for resources of different names, a resource selects its own. -/
theorem exists_filter_owner (h : List.Forall₂ (IsScript kind content) (pairs.zip tokens) artifacts)
    (hlength : tokens.length = pairs.length) (hnodup : (pairs.map fun pair => pair.1.name).Nodup)
    {pair : ResourceSpec × Sql.Table} (hmem : pair ∈ pairs) (hname : pair.1.name ≠ "") :
    ∃ artifact text, content pair = .ok text ∧ artifact.key = scriptKey (pair.1, kind) ∧
      artifact.content = text ∧
      (artifacts.filter fun other => other.owner? == some pair.1.name) = [artifact] := by
  have hpairs : (pairs.zip tokens).map Prod.fst = pairs := List.map_fst_zip (le_of_eq hlength.symm)
  rw [← hpairs] at hmem
  obtain ⟨entry, hentry, rfl⟩ := List.mem_map.mp hmem
  have hnames : ((pairs.zip tokens).map fun other => some other.1.1.name).Nodup := by
    rw [← hpairs, List.map_map] at hnodup
    have hsome := hnodup.map (Option.some_injective String)
    rwa [List.map_map] at hsome
  obtain ⟨artifact, hscript, hfilter⟩ :=
    exists_filter_eq_singleton h (fun _ _ hscript => hscript.owner) hnames hentry
  have hkey := hscript.key hname
  obtain ⟨text, htext, hartifact⟩ := hscript
  exact ⟨artifact, text, htext, hkey, by rw [hartifact]; rfl, hfilter⟩

theorem filter_owner_eq_nil (h : List.Forall₂ (IsScript kind content) (pairs.zip tokens) artifacts)
    (hother : ∀ pair ∈ pairs, pair.1.name ≠ name) :
    (artifacts.filter fun other => other.owner? == some name) = [] := by
  rw [List.filter_eq_nil_iff]
  intro artifact hartifact howner
  obtain ⟨entry, hentry, hscript⟩ := exists_of_mem_forall₂ h.flip hartifact
  have hown : artifact.owner? = some entry.1.1.name := @IsScript.owner kind _ entry artifact hscript
  rw [hown, beq_iff_eq] at howner
  exact hother entry.1 (List.of_mem_zip hentry).1 (Option.some.inj howner)

end Selected

variable {config : ApiConfig} {before after : Sequence} {artifacts : List Artifact}

/-- The keys and contents of the migrations that are issued for a resource are made of it alone. -/
theorem run_migrations_contents (h : run (migrations config) before = (.ok artifacts, after))
    (hnodup : config.resourceNames.Nodup) {resource : ResourceSpec} (hmem : resource ∈ config.resources)
    (hname : resource.name ≠ "") :
    contents resource = .ok ((artifacts.filter fun artifact => artifact.owner? == some resource.name).map
      fun artifact => (artifact.key, artifact.content)) := by
  obtain ⟨tables, creations, indexes, tokens, tokens', between, hbuilt, -, -, hlength, hlength', hissued,
    hissued', rfl⟩ := run_migrations_eq_ok h
  have hnames : ((resourceTables config tables).map fun pair => pair.1.name).Nodup := by
    change ((resourceTables config tables).map (ResourceSpec.name ∘ Prod.fst)).Nodup
    rw [← List.map_map, map_fst_resourceTables hbuilt]
    exact hnodup
  have hnames' : ((indexedTables config tables).map fun pair => pair.1.name).Nodup :=
    hnames.sublist (List.filter_sublist.map _)
  have hresources := map_fst_resourceTables hbuilt
  obtain ⟨pair, hpair, rfl⟩ := List.mem_map.mp (hresources.symm ▸ hmem)
  have hof := Outcome.of_mem_zip (buildTables_eq_ok hbuilt) hpair
  obtain ⟨creation, text, htext, hkey, htold, hcreated⟩ :=
    exists_filter_owner hissued hlength hnames hpair hname
  have hcreation : (creation.key, creation.content) =
      (scriptKey (pair.1, .createTable), tableText pair.2) := by
    rw [hkey, htold, tableScript_eq_ok htext]
  rw [List.filter_append, hcreated, List.map_append, List.map_singleton, hcreation]
  cases hindexes : pair.1.indexes.isEmpty with
  | true =>
      have hnone : ∀ other ∈ indexedTables config tables, other.1.name ≠ pair.1.name := by
        intro other hother heq
        obtain ⟨hzip, hsome⟩ := List.mem_filter.mp hother
        have hsame := List.inj_on_of_nodup_map hnames hzip hpair heq
        rw [hsame, hindexes] at hsome
        cases hsome
      rw [filter_owner_eq_nil hissued' hnone]
      exact contents_of_isEmpty hof hindexes
  | false =>
      have hindexed : pair ∈ indexedTables config tables :=
        List.mem_filter.mpr ⟨hpair, by rw [hindexes]; rfl⟩
      obtain ⟨creation', text', htext', hkey', htold', hcreated'⟩ :=
        exists_filter_owner hissued' hlength' hnames' hindexed hname
      rw [hcreated', List.map_singleton, hkey', htold']
      exact contents_of_indexes hof hindexes htext'

end ApiScaffold.Migration
