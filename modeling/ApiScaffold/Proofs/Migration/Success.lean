import Mathlib
import ApiScaffold.Proofs.Migration.Issued
import ApiScaffold.Proofs.Migration.Resolution
import ApiScaffold.Proofs.Number.Range

/-! When the migrations of an accepted configuration are issued: exactly if the stored defaults can be
written, no index has too long a name, and the sequence gives a token for every script. -/

namespace ApiScaffold

/-! ### Tokens that are left -/

namespace Sequence

/-- As many tokens can be taken from a sequence one after another. -/
def CanIssue (sequence : Sequence) (count : Nat) : Prop :=
  ∃ tokens after, Taken sequence tokens after ∧ tokens.length = count

/-- A sequence gives a token exactly if its width and its counter can be written. -/
theorem exists_token_iff {sequence : Sequence} :
    (∃ token, sequence.token = .ok token) ↔
      (0 ≤ sequence.width ∧ sequence.width < memoryBound) ∧ hasIntegerText sequence.next = true := by
  rw [token, Outcome.exists_map_iff, counterText]
  by_cases hwidth : 0 ≤ sequence.width ∧ sequence.width < memoryBound
  · obtain ⟨hnonneg, hmemory⟩ := hwidth
    have hbound : sequence.width.natAbs < twoTo 1024 := by
      have hlarge : twoTo 33 ≤ twoTo 1024 := twoTo_mono (by decide)
      rw [memoryBound] at hmemory
      omega
    have hbelow : ¬widthBound ≤ sequence.width := by
      have hbounds : memoryBound ≤ widthBound := by decide
      omega
    rw [hasIntegerText_of_lt hbound]
    generalize hasIntegerText sequence.next = isCounterText
    cases isCounterText with
    | true => simp [hnonneg, not_lt.mpr hnonneg, hbelow, hmemory, not_le.mpr hmemory]
    | false => simp [not_lt.mpr hnonneg, hbelow]
  · refine iff_of_false ?_ fun h => hwidth h.1
    rintro ⟨text, htext⟩
    split at htext
    · cases htext
    · split at htext
      · cases htext
      · split at htext
        · cases htext
        · split at htext
          · cases htext
          · split at htext
            · cases htext
            · rename_i _ hnonneg _ _ hmemory
              exact hwidth ⟨not_lt.mp hnonneg, not_le.mp hmemory⟩

theorem canIssue_succ {sequence : Sequence} {count : Nat} :
    sequence.CanIssue (count + 1) ↔
      ∃ token, sequence.token = .ok token ∧ (sequence.advance token).CanIssue count := by
  constructor
  · rintro ⟨tokens, after, htaken, hlength⟩
    cases htaken with
    | nil => cases hlength
    | cons htoken hrest => exact ⟨_, htoken, _, _, hrest, Nat.succ.inj hlength⟩
  · rintro ⟨token, htoken, tokens, after, htaken, rfl⟩
    exact ⟨token :: tokens, after, .cons htoken htaken, rfl⟩

/-- A sequence gives tokens as long as its counter can be written. -/
theorem canIssue_iff {sequence : Sequence} {count : Nat} :
    sequence.CanIssue count ↔ ∀ i < count,
      (0 ≤ sequence.width ∧ sequence.width < memoryBound) ∧
        hasIntegerText (sequence.next + i) = true := by
  induction count generalizing sequence with
  | zero => exact iff_of_true ⟨[], sequence, .nil, rfl⟩ nofun
  | succ count ih =>
      have hnext : ∀ i : Nat, sequence.next + 1 + i = sequence.next + ((i + 1 : Nat) : Int) := by
        intro i
        omega
      rw [canIssue_succ, Nat.forall_lt_succ_left]
      simp only [ih, advance, hnext, Nat.cast_zero, add_zero]
      rw [← exists_token_iff, exists_and_right]

/-- A new sequence gives a token for every counter that can be written. -/
theorem canIssue_new_iff {stamp : String} {count : Nat} :
    ({ stamp := stamp } : Sequence).CanIssue count ↔ count < integerTextBound := by
  have hwidth : (0 : Int) ≤ 4 ∧ 4 < memoryBound := by decide
  have hpos : 0 < integerTextBound := tenTo_pos Number.digitLimit
  simp only [canIssue_iff, hwidth, true_and, hasIntegerText, decide_eq_true_eq]
  constructor
  · intro h
    cases count with
    | zero => exact hpos
    | succ last =>
        have hlast := h last (Nat.lt_succ_self last)
        omega
  · intro h i hi
    omega

end Sequence

/-! ### Scripts -/

theorem Sql.length_le_of_createIndex {table : Table} {index : Index} {statement : String}
    (h : createIndex table index = .ok statement) : index.name.length ≤ nameLimit := by
  unfold createIndex at h
  split at h
  · cases h
  · split at h
    · cases h
    · rename_i hlength
      exact not_lt.mp hlength

namespace Migration

open Sequence

variable {config : ApiConfig} {before after : Sequence}

/-- Where there is a script for every resource, and a token for each of them, all are issued. -/
theorem exists_run_scripts {pairs : List (ResourceSpec × Sql.Table)} {kind : MigrationKind}
    {content : ResourceSpec × Sql.Table → Except GenerationFault String} {tokens others : List String}
    (hcontent : ∀ pair ∈ pairs, ∃ text, content pair = .ok text)
    (htaken : Taken before (tokens ++ others) after) (hlength : tokens.length = pairs.length) :
    ∃ artifacts between, run (pairs.mapM (scriptOf kind content)) before = (.ok artifacts, between) ∧
      Taken between others after := by
  induction pairs generalizing before tokens with
  | nil =>
      rw [List.length_eq_zero_iff.mp hlength] at htaken
      exact ⟨[], before, rfl, htaken⟩
  | cons pair rest ih =>
      obtain ⟨⟨text, htext⟩, hrest⟩ := List.forall_mem_cons.mp hcontent
      cases tokens with
      | nil => cases hlength
      | cons token tokens =>
          cases htaken with
          | cons htoken htaken =>
              obtain ⟨artifacts, between, hrun, hothers⟩ := ih hrest htaken (Nat.succ.inj hlength)
              have hfirst : ∃ artifact, run (scriptOf kind content pair) before =
                  (.ok artifact, before.advance token) :=
                ⟨_, run_issue_eq_ok.mpr ⟨text, token, htext, htoken, rfl, rfl⟩⟩
              obtain ⟨artifact, hartifact⟩ := hfirst
              refine ⟨artifact :: artifacts, between, ?_, hothers⟩
              rw [List.mapM_cons]
              exact run_bind_eq_ok.mpr ⟨artifact, _, hartifact,
                run_bind_eq_ok.mpr ⟨artifacts, between, hrun, rfl⟩⟩

/-- The stored defaults of a configuration can be written. -/
def DefaultsWritable (config : ApiConfig) : Prop :=
  ∀ resource ∈ config.resources, ∀ field ∈ resource.storedFields,
    ∀ default ∈ field.declaredDefault, default.hasText = true

/-- No index of a configuration has too long a name. -/
def IndexNamesFit (config : ApiConfig) : Prop :=
  ∀ resource ∈ config.resources, ∀ index ∈ resource.indexes,
    (Check.indexName resource index).length ≤ Sql.nameLimit

theorem exists_buildTables_iff (h : config.Accepted) :
    (∃ tables, buildTables true config.resources = .ok tables) ↔ DefaultsWritable config := by
  constructor
  · rintro ⟨tables, htables⟩ resource hresource
    obtain ⟨table, -, htable⟩ := Outcome.exists_of_mem_mapM (buildTables_eq_ok htables) hresource
    exact (exists_tableOf_iff (h.resolved.fields_mapped resource hresource)).mp ⟨table, htable⟩
  · intro hdefaults
    cases hbuilt : buildTables true config.resources with
    | ok tables => exact ⟨tables, rfl⟩
    | error fault =>
        obtain ⟨resource, hresource, hof⟩ := foldlM_addTable_eq_error
          (fun resource hresource => h.fieldNames_nodup hresource)
          (by rw [List.map_nil, List.nil_append]; exact h.tableNames_nodup) hbuilt
        obtain ⟨table, htable⟩ := (@exists_tableOf_iff true resource
          (h.resolved.fields_mapped resource hresource)).mpr (hdefaults resource hresource)
        rw [hof] at htable
        cases htable

theorem exists_tableScript (h : config.Accepted) {tables : List Sql.Table}
    (hbuilt : buildTables true config.resources = .ok tables) {table : Sql.Table} (htable : table ∈ tables) :
    ∃ text, tableScript tables table = .ok text := by
  rw [tableScript, Outcome.exists_map_iff]
  cases hcreate : Sql.createTable tables table with
  | ok ddl => exact ⟨ddl, rfl⟩
  | error fault =>
      refine absurd hcreate (Sql.createTable_ne_error ?_)
      exact fun column hcolumn reference hreference =>
        reference_resolves h hbuilt htable hcolumn hreference

/-- Over columns of its table, the indexes of a resource are created exactly if their names are short. -/
theorem exists_indexScript_iff {resource : ResourceSpec} {table : Sql.Table}
    (hname : table.name = resource.tableName) (hsome : resource.indexes.isEmpty = false)
    (hcolumns : ∀ index ∈ resource.indexes, ∀ name ∈ index.fields, name ∈ table.columnNames) :
    (∃ text, indexScript resource table = .ok text) ↔
      ∀ index ∈ resource.indexes, (Check.indexName resource index).length ≤ Sql.nameLimit := by
  have hindex : ∀ index, (indexOf table index).name = Check.indexName resource index := by
    intro index
    rw [indexOf, hname]
    rfl
  constructor
  · rintro ⟨text, htext⟩ index hmem
    unfold indexScript at htext
    rw [hsome] at htext
    obtain ⟨statements, hstatements, -⟩ := Outcome.bind_eq_ok.mp htext
    obtain ⟨statement, -, hstatement⟩ := Outcome.exists_of_mem_mapM hstatements hmem
    rw [← hindex index]
    exact Sql.length_le_of_createIndex (Outcome.mapError_eq_ok.mp hstatement)
  · intro hshort
    cases hscript : indexScript resource table with
    | ok text => exact ⟨text, rfl⟩
    | error fault =>
        obtain ⟨index, hmem, hlong, -⟩ := indexScript_eq_error hsome hcolumns hscript
        rw [hindex index] at hlong
        exact absurd (hshort index hmem) (not_le.mpr hlong)

/-- The table of a resource with indexes has the columns that they cover. -/
theorem mem_indexedTables (h : config.Accepted) {tables : List Sql.Table}
    (hbuilt : buildTables true config.resources = .ok tables) {pair : ResourceSpec × Sql.Table}
    (hpair : pair ∈ indexedTables config tables) :
    pair.1 ∈ config.resources ∧ pair.1.indexes.isEmpty = false ∧ pair.2.name = pair.1.tableName ∧
      ∀ index ∈ pair.1.indexes, ∀ name ∈ index.fields, name ∈ pair.2.columnNames := by
  obtain ⟨hzip, hsome⟩ := List.mem_filter.mp hpair
  have hresource := (List.of_mem_zip hzip).1
  have hof := Outcome.of_mem_zip (buildTables_eq_ok hbuilt) hzip
  refine ⟨hresource, by simpa using hsome, tableOf_name hof, ?_⟩
  rw [tableOf_columnNames hof]
  exact h.resolved.indexes pair.1 hresource

/-- The migrations of an accepted configuration are issued exactly if its defaults and the names of its
indexes can be written and there is a token for every script. -/
theorem exists_run_migrations_iff (h : config.Accepted) :
    (∃ artifacts after, run (migrations config) before = (.ok artifacts, after)) ↔
      DefaultsWritable config ∧ IndexNamesFit config ∧ before.CanIssue (scripts config).length := by
  constructor
  · rintro ⟨artifacts, after, hrun⟩
    obtain ⟨tables, creations, indexes, tokens, tokens', between, hbuilt, -, -, -, hlength, -, hissued,
      -⟩ := run_migrations_eq_ok hrun
    obtain ⟨taken, htaken, hcount, -⟩ := run_migrations hrun
    refine ⟨(exists_buildTables_iff h).mp ⟨tables, hbuilt⟩, ?_, taken, after, htaken, hcount⟩
    intro resource hresource index hindex
    have hindexed : resource ∈ (indexedTables config tables).map Prod.fst := by
      rw [map_fst_indexedTables hbuilt]
      refine List.mem_filter.mpr ⟨hresource, ?_⟩
      rw [Bool.not_eq_true', List.isEmpty_eq_false_iff]
      exact List.ne_nil_of_mem hindex
    obtain ⟨pair, hpair, rfl⟩ := List.mem_map.mp hindexed
    obtain ⟨-, hsome, hname, hcolumns⟩ := mem_indexedTables h hbuilt hpair
    have hzip : pair ∈ ((indexedTables config tables).zip tokens').map Prod.fst := by
      rwa [List.map_fst_zip (le_of_eq hlength.symm)]
    obtain ⟨entry, hentry, rfl⟩ := List.mem_map.mp hzip
    obtain ⟨artifact, -, text, htext, -⟩ := exists_of_mem_forall₂ hissued hentry
    exact (exists_indexScript_iff hname hsome hcolumns).mp ⟨text, htext⟩ index hindex
  · rintro ⟨hdefaults, hnames, tokens, after, htaken, hcount⟩
    obtain ⟨tables, hbuilt⟩ := (exists_buildTables_iff h).mpr hdefaults
    have hcreations : ∀ pair ∈ resourceTables config tables,
        ∃ text, tableScript tables pair.2 = .ok text := fun pair hpair =>
      exists_tableScript h hbuilt (List.of_mem_zip hpair).2
    have hindexes : ∀ pair ∈ indexedTables config tables,
        ∃ text, indexScript pair.1 pair.2 = .ok text := by
      intro pair hpair
      obtain ⟨hresource, hsome, hname, hcolumns⟩ := mem_indexedTables h hbuilt hpair
      exact (exists_indexScript_iff hname hsome hcolumns).mpr (hnames pair.1 hresource)
    have hfirst := congrArg List.length (map_fst_resourceTables hbuilt)
    have hsecond := congrArg List.length (map_fst_indexedTables hbuilt)
    rw [List.length_map] at hfirst hsecond
    have hscripts : (scripts config).length =
        (resourceTables config tables).length + (indexedTables config tables).length := by
      rw [scripts, List.length_append, List.length_map, List.length_map, hfirst, hsecond]
    -- The tokens are those for the tables, and those for the indexes behind them.
    obtain ⟨forTables, forIndexes, rfl, htables⟩ : ∃ forTables forIndexes,
        tokens = forTables ++ forIndexes ∧
          forTables.length = (resourceTables config tables).length :=
      ⟨tokens.take (resourceTables config tables).length, tokens.drop _,
        (List.take_append_drop _ _).symm, List.length_take_of_le (by omega)⟩
    rw [List.length_append] at hcount
    obtain ⟨creations, between, hrun, htaken⟩ :=
      @exists_run_scripts _ _ _ .createTable _ _ _ hcreations htaken htables
    rw [← List.append_nil forIndexes] at htaken
    obtain ⟨indexes, last, hrun', -⟩ :=
      @exists_run_scripts _ _ _ .createIndexes _ _ _ hindexes htaken (by omega)
    refine ⟨creations ++ indexes, last, ?_⟩
    unfold migrations
    rw [run_bind, run_ofExcept, hbuilt]
    simp only [createTable_eq, createIndexes_eq]
    exact run_bind_eq_ok.mpr ⟨creations, between, hrun,
      run_bind_eq_ok.mpr ⟨indexes, last, hrun', rfl⟩⟩

end Migration

end ApiScaffold
