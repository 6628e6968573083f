import Mathlib
import ApiScaffold.Proofs.Artifact
import ApiScaffold.Proofs.Check.Names
import ApiScaffold.Proofs.Issuing
import ApiScaffold.Proofs.Migration.Table
import ApiScaffold.Proofs.Naming.Identifier

/-! The migrations of a configuration as they are issued: the scripts that create tables, then those
that create indexes, each under a token of its own. Their paths differ by their tokens, and their keys
by the resource and by what is done for it. -/

namespace ApiScaffold.Migration

open Sequence

/-! ### Scripts in a row -/

/-- Scripts that are issued for items take a token each, in order. -/
theorem run_mapM_issue {α : Type} {items : List α} {content : α → Except GenerationFault String}
    {label : α → String} {kind : MigrationKind} {resource : α → Option String}
    {before after : Sequence} {artifacts : List Artifact}
    (h : run (items.mapM fun item => issue (content item) (label item) kind (resource item)) before =
      (.ok artifacts, after)) :
    ∃ tokens, Taken before tokens after ∧ tokens.length = items.length ∧
      List.Forall₂ (fun (entry : α × String) artifact => ∃ text, content entry.1 = .ok text ∧
        artifact = artifactOf s!"{entry.2}_{label entry.1}" text kind (resource entry.1))
        (items.zip tokens) artifacts := by
  induction items generalizing before artifacts with
  | nil =>
      rw [List.mapM_nil, run_pure] at h
      obtain ⟨hartifacts, rfl⟩ := Prod.mk.inj h
      obtain rfl := Except.ok.inj hartifacts
      exact ⟨[], .nil, rfl, .nil⟩
  | cons item rest ih =>
      rw [List.mapM_cons] at h
      obtain ⟨first, between, hfirst, hrest⟩ := run_bind_eq_ok.mp h
      obtain ⟨others, last, hothers, hpure⟩ := run_bind_eq_ok.mp hrest
      rw [run_pure] at hpure
      obtain ⟨hartifacts, rfl⟩ := Prod.mk.inj hpure
      obtain rfl := Except.ok.inj hartifacts
      obtain ⟨text, token, htext, htoken, hartifact, rfl⟩ := run_issue_eq_ok.mp hfirst
      obtain ⟨tokens, htaken, hlength, hall⟩ := ih hothers
      exact ⟨token :: tokens, .cons htoken htaken, by rw [List.length_cons, hlength, List.length_cons],
        .cons ⟨text, htext, hartifact⟩ hall⟩

/-! ### Scripts of a configuration -/

/-- A script: a resource and what is done for it. -/
abbrev Script := ResourceSpec × MigrationKind

/-- The scripts of a configuration in the order in which they are issued. -/
def scripts (config : ApiConfig) : List Script :=
  config.resources.map (·, .createTable) ++
    (config.resources.filter fun resource => !resource.indexes.isEmpty).map (·, .createIndexes)

/-- The path of a script under a token. -/
def scriptPath (script : Script) (token : String) : String :=
  "migrations/" ++ (token ++ "_" ++ (script.1.name ++ "_" ++ script.2.name)) ++ ".sql"

/-- What a script is known by. -/
def scriptKey (script : Script) : String :=
  "migrations/" ++ script.1.name ++ ":" ++ script.2.name

/-- An artifact is a script under a token. -/
def IsIssued (entry : Script × String) (artifact : Artifact) : Prop :=
  artifact.path = some (scriptPath entry.1 entry.2) ∧
    artifact.detail = .migration entry.1.2 (some entry.1.1.name)

/-- The script of one kind for a resource and its table. -/
def scriptOf (kind : MigrationKind) (content : ResourceSpec × Sql.Table → Except GenerationFault String)
    (pair : ResourceSpec × Sql.Table) : Issuing Artifact :=
  issue (content pair) (pair.1.name ++ "_" ++ kind.name) kind (some pair.1.name)

theorem createTable_eq (tables : List Sql.Table) (pair : ResourceSpec × Sql.Table) :
    createTable tables pair.1 pair.2 =
      scriptOf .createTable (fun pair => tableScript tables pair.2) pair := by
  have hmark : "_" ++ MigrationKind.createTable.name = "_create_table" := by decide
  rw [createTable, scriptOf, String.append_assoc, hmark]
  rfl

theorem createIndexes_eq (pair : ResourceSpec × Sql.Table) :
    createIndexes pair.1 pair.2 =
      scriptOf .createIndexes (fun pair => indexScript pair.1 pair.2) pair := by
  have hmark : "_" ++ MigrationKind.createIndexes.name = "_create_indexes" := by decide
  rw [createIndexes, scriptOf, String.append_assoc, hmark]
  rfl

/-- An artifact is the script of one kind for a resource and its table, issued under a token. -/
def IsScript (kind : MigrationKind) (content : ResourceSpec × Sql.Table → Except GenerationFault String)
    (entry : (ResourceSpec × Sql.Table) × String) (artifact : Artifact) : Prop :=
  ∃ text, content entry.1 = .ok text ∧
    artifact = artifactOf (entry.2 ++ "_" ++ (entry.1.1.name ++ "_" ++ kind.name)) text kind
      (some entry.1.1.name)

/-- Scripts of one kind are all of the kind that is looked for, or none is. -/
theorem filter_isScript {kind wanted : MigrationKind} {selects : Artifact → Bool}
    (hselects : ∀ name text kind resource,
      selects (artifactOf name text kind resource) = decide (kind = wanted))
    {content : ResourceSpec × Sql.Table → Except GenerationFault String}
    {entries : List ((ResourceSpec × Sql.Table) × String)} {artifacts : List Artifact}
    (h : List.Forall₂ (IsScript kind content) entries artifacts) :
    artifacts.filter selects = if kind = wanted then artifacts else [] := by
  have hkind : ∀ artifact ∈ artifacts, selects artifact = decide (kind = wanted) := by
    intro artifact hmem
    obtain ⟨entry, -, text, -, rfl⟩ := exists_of_mem_forall₂ h.flip hmem
    exact hselects _ _ _ _
  rw [List.filter_congr hkind]
  split
  · rename_i heq
    simp [heq]
  · rename_i hne
    simp [hne]

/-- The resources that declare indexes, with their tables. -/
def indexedTables (config : ApiConfig) (tables : List Sql.Table) : List (ResourceSpec × Sql.Table) :=
  (resourceTables config tables).filter fun pair => !pair.1.indexes.isEmpty

theorem map_fst_resourceTables {config : ApiConfig} {tables : List Sql.Table}
    (h : buildTables true config.resources = .ok tables) :
    (resourceTables config tables).map Prod.fst = config.resources := by
  have hlength := (Outcome.mapM_eq_ok.mp (buildTables_eq_ok h)).length_eq
  exact List.map_fst_zip (le_of_eq hlength)

theorem map_fst_indexedTables {config : ApiConfig} {tables : List Sql.Table}
    (h : buildTables true config.resources = .ok tables) :
    (indexedTables config tables).map Prod.fst =
      config.resources.filter fun resource => !resource.indexes.isEmpty := by
  rw [← map_fst_resourceTables h, List.filter_map]
  rfl

/-- The migrations of a configuration are the scripts that create its tables, then those that create
its indexes. They take one token each. -/
theorem run_migrations_eq_ok {config : ApiConfig} {before after : Sequence}
    {artifacts : List Artifact} (h : run (migrations config) before = (.ok artifacts, after)) :
    ∃ tables creations indexes tokens tokens' between,
      buildTables true config.resources = .ok tables ∧
        Taken before tokens between ∧ Taken between tokens' after ∧
        tokens.length = (resourceTables config tables).length ∧
        tokens'.length = (indexedTables config tables).length ∧
        List.Forall₂ (IsScript .createTable fun pair => tableScript tables pair.2)
          ((resourceTables config tables).zip tokens) creations ∧
        List.Forall₂ (IsScript .createIndexes fun pair => indexScript pair.1 pair.2)
          ((indexedTables config tables).zip tokens') indexes ∧
        artifacts = creations ++ indexes := by
  unfold migrations at h
  rw [run_bind, run_ofExcept] at h
  cases hbuilt : buildTables true config.resources with
  | error fault =>
      rw [hbuilt] at h
      cases (Prod.mk.inj h).1
  | ok tables =>
      simp only [hbuilt, createTable_eq, createIndexes_eq] at h
      obtain ⟨creations, between, hcreations, h⟩ := run_bind_eq_ok.mp h
      obtain ⟨indexes, last, hindexes, hpure⟩ := run_bind_eq_ok.mp h
      rw [run_pure] at hpure
      obtain ⟨hartifacts, rfl⟩ := Prod.mk.inj hpure
      obtain rfl := Except.ok.inj hartifacts
      obtain ⟨tokens, htaken, hlength, hissued⟩ := run_mapM_issue hcreations
      obtain ⟨tokens', htaken', hlength', hissued'⟩ := run_mapM_issue hindexes
      exact ⟨tables, creations, indexes, tokens, tokens', between, rfl, htaken, htaken', hlength,
        hlength', hissued, hissued', rfl⟩

/-- What is issued for resources and their tables is issued for the resources. -/
theorem isIssued_of_isScript {pairs : List (ResourceSpec × Sql.Table)} {tokens : List String}
    {kind : MigrationKind} {content : ResourceSpec × Sql.Table → Except GenerationFault String}
    {artifacts : List Artifact} (h : List.Forall₂ (IsScript kind content) (pairs.zip tokens) artifacts) :
    List.Forall₂ IsIssued (((pairs.map Prod.fst).map (·, kind)).zip tokens) artifacts := by
  rw [List.map_map, List.zip_map_left, List.forall₂_map_left_iff]
  refine h.imp ?_
  rintro ⟨⟨resource, table⟩, token⟩ artifact ⟨text, -, rfl⟩
  exact ⟨rfl, rfl⟩

/-- The migrations of a configuration are its scripts under tokens in a row. -/
theorem run_migrations {config : ApiConfig} {before after : Sequence} {artifacts : List Artifact}
    (h : run (migrations config) before = (.ok artifacts, after)) :
    ∃ tokens, Taken before tokens after ∧ tokens.length = (scripts config).length ∧
      List.Forall₂ IsIssued ((scripts config).zip tokens) artifacts := by
  obtain ⟨tables, creations, indexes, tokens, tokens', between, hbuilt, htaken, htaken', hlength,
    hlength', hissued, hissued', rfl⟩ := run_migrations_eq_ok h
  have hcreations := isIssued_of_isScript hissued
  have hindexes := isIssued_of_isScript hissued'
  rw [map_fst_resourceTables hbuilt] at hcreations
  rw [map_fst_indexedTables hbuilt] at hindexes
  have htables : tokens.length = config.resources.length := by
    rw [hlength, ← map_fst_resourceTables hbuilt, List.length_map]
  have hindexed : tokens'.length =
      (config.resources.filter fun resource => !resource.indexes.isEmpty).length := by
    rw [hlength', ← map_fst_indexedTables hbuilt, List.length_map]
  refine ⟨tokens ++ tokens', htaken.append htaken', ?_, ?_⟩
  · simp [scripts, htables, hindexed]
  · rw [scripts, List.zip_append (by rw [List.length_map, htables])]
    exact List.rel_append hcreations hindexes

/-! ### Paths and keys -/

theorem head?_scriptPath (script : Script) (token : String) :
    (scriptPath script token).toList.head? = some 'm' := by
  rw [scriptPath, String.toList_append, String.toList_append, List.append_assoc]
  rfl

theorem IsIssued.place {entry : Script × String} {artifact : Artifact}
    (h : IsIssued entry artifact) : artifact.place = scriptPath entry.1 entry.2 :=
  Artifact.place_of_path h.1 (ne_empty_of_head? (head?_scriptPath entry.1 entry.2))

theorem IsIssued.key {entry : Script × String} {artifact : Artifact} (h : IsIssued entry artifact)
    (hname : entry.1.1.name ≠ "") : artifact.key = scriptKey entry.1 := by
  rw [Artifact.key, h.2]
  simp only [someText_of_ne hname, Option.getD_some]
  rfl

theorem IsIssued.head?_key {entry : Script × String} {artifact : Artifact}
    (h : IsIssued entry artifact) : artifact.key.toList.head? = some 'm' := by
  rw [Artifact.key, h.2]
  simp only [String.toList_append, List.append_assoc]
  rfl

/-- Whatever is issued is a script under a token. -/
theorem exists_isIssued {entries : List (Script × String)} {artifacts : List Artifact}
    (h : List.Forall₂ IsIssued entries artifacts) {artifact : Artifact}
    (hartifact : artifact ∈ artifacts) : ∃ entry, IsIssued entry artifact := by
  obtain ⟨entry, -, hissued⟩ := exists_of_mem_forall₂ h.flip hartifact
  exact ⟨entry, hissued⟩

section Issued

variable {config : ApiConfig} {before after : Sequence} {tokens : List String}
  {artifacts : List Artifact}

/-- Tokens in a row lead to different paths. -/
theorem places_nodup_of_issued (htaken : Taken before tokens after)
    (hlength : tokens.length = (scripts config).length)
    (hissued : List.Forall₂ IsIssued ((scripts config).zip tokens) artifacts) :
    (artifacts.map Artifact.place).Nodup := by
  have hplaces : artifacts.map Artifact.place =
      ((scripts config).zip tokens).map fun entry => scriptPath entry.1 entry.2 :=
    map_eq_map_of_forall₂ hissued fun _ _ _ h => h.place
  rw [hplaces]
  have htoken : ∀ entry ∈ (scripts config).zip tokens, ∃ n, entry.2 = before.tokenAt n := by
    intro entry hentry
    have hmem := (List.of_mem_zip hentry).2
    rw [htaken.eq_map] at hmem
    obtain ⟨i, -, hi⟩ := List.mem_map.mp hmem
    exact ⟨_, hi.symm⟩
  apply nodup_map_zip hlength htaken.nodup
  intro a ha b hb heq
  obtain ⟨m, hm⟩ := htoken a ha
  obtain ⟨n, hn⟩ := htoken b hb
  rw [scriptPath, scriptPath] at heq
  have hnamed := (String.append_right_inj _).mp ((String.append_left_inj _).mp heq)
  rw [hm, hn] at hnamed ⊢
  rw [(tokenAt_labelled_inj hnamed).1]

theorem scripts_nodup (h : config.resourceNames.Nodup) : (scripts config).Nodup := by
  have hresources : config.resources.Nodup := h.of_map
  have hpair : ∀ kind : MigrationKind, Function.Injective fun resource : ResourceSpec =>
      (resource, kind) := fun kind _ _ heq => (Prod.mk.inj heq).1
  rw [scripts, List.nodup_append']
  refine ⟨hresources.map (hpair _), (hresources.filter _).map (hpair _), ?_⟩
  intro script hcreate hindexes
  obtain ⟨_, -, rfl⟩ := List.mem_map.mp hcreate
  obtain ⟨_, -, heq⟩ := List.mem_map.mp hindexes
  cases (Prod.mk.inj heq).2

theorem mem_resources_of_mem_scripts {script : Script} (h : script ∈ scripts config) :
    script.1 ∈ config.resources := by
  rcases List.mem_append.mp h with hcreate | hindexes
  · obtain ⟨resource, hmem, rfl⟩ := List.mem_map.mp hcreate
    exact hmem
  · obtain ⟨resource, hmem, rfl⟩ := List.mem_map.mp hindexes
    exact List.mem_of_mem_filter hmem

/-- A key ends the name of its resource with a colon. -/
theorem scriptKey_inj {script other : Script} (hscript : ':' ∉ script.1.name.toList)
    (hother : ':' ∉ other.1.name.toList) (h : scriptKey script = scriptKey other) :
    script.1.name = other.1.name ∧ script.2 = other.2 := by
  have hlists := congrArg String.toList h
  simp only [scriptKey, String.toList_append, List.append_assoc] at hlists
  obtain ⟨hname, hkind⟩ := append_mark_inj hscript hother (List.append_cancel_left hlists)
  exact ⟨String.toList_injective hname,
    MigrationKind.name_injective (String.toList_injective hkind)⟩

/-- Where names are identifiers, what is issued is known by its script alone. -/
theorem map_key_of_issued
    (hidentifier : ∀ script ∈ scripts config, Naming.isIdentifier script.1.name = true)
    (hlength : tokens.length = (scripts config).length)
    (hissued : List.Forall₂ IsIssued ((scripts config).zip tokens) artifacts) :
    artifacts.map Artifact.key = (scripts config).map scriptKey := by
  have hzip : ((scripts config).zip tokens).map Prod.fst = scripts config :=
    List.map_fst_zip (le_of_eq hlength.symm)
  calc artifacts.map Artifact.key
      = ((scripts config).zip tokens).map fun entry => scriptKey entry.1 := by
        apply map_eq_map_of_forall₂ hissued
        intro entry hentry artifact h
        exact h.key (Naming.ne_empty_of_isIdentifier
          (hidentifier entry.1 (List.of_mem_zip hentry).1))
    _ = (((scripts config).zip tokens).map Prod.fst).map scriptKey := by
        rw [List.map_map]
        rfl
    _ = (scripts config).map scriptKey := by rw [hzip]

/-- Different resources, and different scripts of one resource, are known by different keys. -/
theorem keys_nodup_of_issued (haccepted : config.Accepted)
    (hlength : tokens.length = (scripts config).length)
    (hissued : List.Forall₂ IsIssued ((scripts config).zip tokens) artifacts) :
    (artifacts.map Artifact.key).Nodup := by
  have hidentifier : ∀ script ∈ scripts config, Naming.isIdentifier script.1.name = true :=
    fun script hscript => haccepted.admitted.identifiers _
      (List.mem_map_of_mem (mem_resources_of_mem_scripts hscript))
  have hcolon : ∀ script ∈ scripts config, ':' ∉ script.1.name.toList := fun script hscript =>
    Naming.not_mem_of_isIdentifier (hidentifier script hscript) (by decide) (by decide)
  rw [map_key_of_issued hidentifier hlength hissued]
  apply (scripts_nodup haccepted.resourceNames_nodup).map_on
  intro a ha b hb heq
  obtain ⟨hname, hkind⟩ := scriptKey_inj (hcolon a ha) (hcolon b hb) heq
  apply Prod.ext
  · exact List.inj_on_of_nodup_map haccepted.resourceNames_nodup
      (mem_resources_of_mem_scripts ha) (mem_resources_of_mem_scripts hb) hname
  · exact hkind

end Issued

end ApiScaffold.Migration
