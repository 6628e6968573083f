import Mathlib
import ApiScaffold.Proofs.Migration.Seed
import ApiScaffold.Proofs.Text.Lines

/-! The columns of seed data. Keys that are no columns are refused, each named once. The others are the
columns of one insertion, which lists each of them once and has a tuple with an entry for each of them for
every record, whatever the records leave out. -/

namespace ApiScaffold

namespace Sql

/-- Reads the head of an insertion: its table and its columns. -/
def readHead (text : String) : Option (String × List String) := do
  let tokens ← Reading.read text
  match afterWords ["INSERT", "INTO"] tokens with
  | some (table :: .opens :: rest) =>
    let table ← table.name?
    let (columns, after) ← readNames rest
    if after.isEmpty then some (table, columns) else none
  | _ => none

end Sql

namespace Migration

open Sql.Reading Sequence

/-! ### Heads -/

theorem readHead_insertionHead {table : String} {columns : List String} (hne : columns ≠ [])
    (htable : Naming.IsPlain table) (hcolumns : ∀ name ∈ columns, Naming.IsPlain name) :
    Sql.readHead (insertionHead table columns) = some (table, columns) := by
  have hfeed : Naming.isNameChar '\n' = false := by decide
  have hinsert : Whole "INSERT INTO ".toList [.word "INSERT", .word "INTO"] := by decide
  have hblank : Whole " ".toList [] := by decide
  have hnames : Reads (Sql.identifierList columns).toList (Sql.nameListTokens columns) :=
    Sql.reads_identifierList fun name hname => (hcolumns name hname).not_mem hfeed
  have hhead := hinsert.append ((Sql.reads_identifier (htable.not_mem hfeed)).append
    (.append (by decide) (by decide) _) (hblank.append hnames))
  have hread : read (insertionHead table columns) = some ([.word "INSERT", .word "INTO"] ++
      Sql.nameToken table :: Sql.nameListTokens columns) := by
    apply read_eq_some
    rw [insertionHead]
    simpa [String.toList_append] using hhead
  have hwords : Sql.afterWords ["INSERT", "INTO"] ([.word "INSERT", .word "INTO"] ++
      Sql.nameToken table :: Sql.nameListTokens columns) =
        some (Sql.nameToken table :: Sql.nameListTokens columns) := rfl
  rw [Sql.readHead, hread, Option.bind_eq_bind, Option.bind_some, hwords]
  simp [Sql.nameListTokens, Sql.name?_nameToken, Sql.readNames_intercalate hne]

theorem lineFeed_not_mem_identifier {name : String} (h : Naming.IsPlain name) :
    '\n' ∉ (Sql.identifier name).toList := by
  have hname : '\n' ∉ name.toList := h.not_mem (by decide)
  rw [Sql.identifier]
  split
  · intro hfeed
    rcases Sql.mem_enclosed hfeed with hmark | hfeed
    · cases hmark
    · exact hname hfeed
  · exact hname

theorem lineFeed_not_mem_insertionHead {table : String} {columns : List String}
    (htable : Naming.IsPlain table) (hcolumns : ∀ name ∈ columns, Naming.IsPlain name) :
    '\n' ∉ (insertionHead table columns).toList := by
  have hnames : '\n' ∉ (String.intercalate ", " (columns.map Sql.identifier)).toList := by
    rw [String.toList_intercalate]
    refine not_mem_intercalate (by decide) fun group hgroup => ?_
    obtain ⟨text, htext, rfl⟩ := List.mem_map.mp hgroup
    obtain ⟨name, hname, rfl⟩ := List.mem_map.mp htext
    exact lineFeed_not_mem_identifier (hcolumns name hname)
  have hlist : '\n' ∉ (Sql.identifierList columns).toList :=
    Text.not_mem_append (Text.not_mem_append (by decide) hnames) (by decide)
  exact Text.not_mem_append (Text.not_mem_append
    (Text.not_mem_append (by decide) (lineFeed_not_mem_identifier htable)) (by decide)) hlist

/-! ### Tuples -/

/-- The literal of a record in a column, nothing if its value has none. -/
def KeyedRecord.literal (record : KeyedRecord) (column : Sql.Column) : String :=
  ((literalOf column.storage (record.value column.name)).toOption).getD ""

/-- Whether all values of a record have literals in some columns. -/
def KeyedRecord.HasLiterals (columns : List Sql.Column) (record : KeyedRecord) : Prop :=
  ∀ column ∈ columns, literalOf column.storage (record.value column.name) = .ok (record.literal column)

instance (columns : List Sql.Column) (record : KeyedRecord) : Decidable (record.HasLiterals columns) :=
  inferInstanceAs (Decidable (∀ column ∈ columns, _))

def KeyedRecord.row (columns : List Sql.Column) (record : KeyedRecord) : Row :=
  columns.map fun column => (column, record.literal column)

/-- The tuple of a record: one entry for each column. -/
def KeyedRecord.tuple (columns : List Sql.Column) (record : KeyedRecord) : String :=
  "(" ++ String.intercalate ", " (columns.map record.literal) ++ ")"

def isNull : Value → Bool
  | .null => true
  | _ => false

/-- Whether a record leaves its key to the database though some record gives one. -/
def KeyedRecord.leavesKey (records : List KeyedRecord) (record : KeyedRecord) : Bool :=
  (recordKeys records).contains primaryKey && isNull (record.value primaryKey)

/-- What stands behind a tuple: the clause that asks for a key that is left to the database. -/
def keyClause (leaves : Bool) : String := if leaves then " RETURNING " ++ Sql.identifier primaryKey else ""

/-- The columns that some record names, in the order of the table. -/
def seedColumns (table : Sql.Table) (records : List KeyedRecord) : List Sql.Column :=
  columnsAmong table (recordKeys records)

theorem mapM_cell_eq_ok {record : KeyedRecord} {columns : List Sql.Column} {row : Row} :
    columns.mapM record.cell = .ok row ↔ record.HasLiterals columns ∧ row = record.row columns := by
  apply Outcome.mapM_eq_ok_iff
  intro column _ cell
  rw [KeyedRecord.cell, KeyedRecord.literal]
  cases literalOf column.storage (record.value column.name) with
  | error fault => simp [Except.map]
  | ok text => simp [Except.map, Except.toOption, eq_comm]

/-- A column of text holds null as null, and everything else as text. -/
theorem cellValue_text {v : Value} {cell : Option Value} (h : cellValue .text v = .ok cell) :
    isNull v = true ∧ cell = none ∨ isNull v = false ∧ ∃ s, cell = some (.text s) := by
  unfold cellValue at h
  split at h
  · exact Or.inl ⟨rfl, (Except.ok.inj h).symm⟩
  · obtain ⟨json, -, rfl⟩ := Outcome.map_eq_ok.mp h
    exact Or.inr ⟨rfl, _, rfl⟩
  · obtain ⟨json, -, rfl⟩ := Outcome.map_eq_ok.mp h
    exact Or.inr ⟨rfl, _, rfl⟩
  · exact Or.inr ⟨rfl, _, (Except.ok.inj h).symm⟩
  · exact Or.inr ⟨rfl, _, (Except.ok.inj h).symm⟩
  · exact Or.inr ⟨rfl, _, (Except.ok.inj h).symm⟩
  · rename_i hnull _ _ _ _ _
    rw [if_pos rfl] at h
    split at h
    · refine Or.inr ⟨?_, _, (Except.ok.inj h).symm⟩
      cases v with
      | null => exact absurd rfl hnull
      | _ => rfl
    · cases h

/-- Only null is written as null in a column of text. -/
theorem eq_null_iff_of_literalOf {v : Value} {text : String} (h : literalOf .text v = .ok text) :
    text = "NULL" ↔ isNull v = true := by
  obtain ⟨cell, hcell, htext⟩ := Outcome.bind_eq_ok.mp h
  rcases cellValue_text (Outcome.mapError_eq_ok.mp hcell) with ⟨hnull, rfl⟩ | ⟨hsome, s, rfl⟩
  · exact iff_of_true (Except.ok.inj htext).symm hnull
  · rw [← Except.ok.inj htext, hsome]
    exact iff_of_false (textLiteral_ne_null s) Bool.false_ne_true

/-! ### Scripts -/

section Resource

variable {resource : ResourceSpec} {table : Sql.Table} {records : List KeyedRecord}

/-- The clause stands behind the tuples of the records that leave their key. -/
theorem lacksKey_keyed (htable : buildTable false resource = .ok table) {record : KeyedRecord}
    (hliterals : record.HasLiterals (seedColumns table records)) :
    lacksKey (record.row (seedColumns table records)) = record.leavesKey records := by
  have hof := tableOf_of_buildTable htable
  have hkey : keyColumn ∈ table.columns := by
    obtain ⟨columns, -, rfl⟩ := tableOf_eq_ok.mp hof
    exact List.mem_cons_self
  rw [Bool.eq_iff_iff, lacksKey, KeyedRecord.row, List.any_map, List.any_eq_true, KeyedRecord.leavesKey,
    Bool.and_eq_true]
  simp only [Function.comp_apply, Bool.and_eq_true, beq_iff_eq]
  constructor
  · rintro ⟨column, hcolumn, hisKey, hnull⟩
    obtain ⟨hmem, hgiven⟩ := List.mem_filter.mp hcolumn
    have hname : column.name = keyColumn.name := (tableOf_isKey hof hmem).mp hisKey
    obtain rfl := List.inj_on_of_nodup_map (columnNames_nodup_of_buildTable htable) hmem hkey hname
    exact ⟨hgiven, (eq_null_iff_of_literalOf (hliterals keyColumn hcolumn)).mp hnull⟩
  · rintro ⟨hgiven, hnull⟩
    have hcolumn : keyColumn ∈ seedColumns table records := List.mem_filter.mpr ⟨hkey, hgiven⟩
    exact ⟨keyColumn, hcolumn, rfl, (eq_null_iff_of_literalOf (hliterals keyColumn hcolumn)).mpr hnull⟩

theorem rowText_keyed (htable : buildTable false resource = .ok table) {record : KeyedRecord}
    (hliterals : record.HasLiterals (seedColumns table records)) :
    rowText (record.row (seedColumns table records)) =
      record.tuple (seedColumns table records) ++ keyClause (record.leavesKey records) := by
  rw [← lacksKey_keyed htable hliterals, rowText, KeyedRecord.tuple, keyClause, KeyedRecord.row,
    List.map_map]
  rfl

/-- A clause behind a tuple that another follows is told from the comma between them. So there are tuples
alone, but for a clause behind the last, exactly if no other tuple has one. -/
theorem intercalate_clauses_iff {α : Type} {items : List α} (tuple : α → String) (leaves : α → Bool) :
    (∃ clause, String.intercalate ",\n  " (items.map fun item => tuple item ++ keyClause (leaves item)) =
        String.intercalate ",\n  " (items.map tuple) ++ keyClause clause) ↔
      ∀ item ∈ items.dropLast, leaves item = false := by
  induction items with
  | nil => exact iff_of_true ⟨false, rfl⟩ nofun
  | cons item rest ih =>
      cases rest with
      | nil => exact iff_of_true ⟨leaves item, by simp⟩ nofun
      | cons other rest =>
          rw [List.dropLast_cons_cons, List.forall_mem_cons, ← ih]
          simp only [List.map_cons, String.intercalate_cons_cons, String.append_assoc,
            String.append_right_inj]
          cases leaves item with
          | false => simp [keyClause]
          | true =>
              -- Behind the first tuple there is a blank on one side and a comma on the other.
              refine iff_of_false ?_ fun h => Bool.noConfusion h.1
              rintro ⟨clause, heq⟩
              have hheads := congrArg (fun text : String => text.toList.head?) heq
              simp [keyClause, String.toList_append] at hheads

/-- Records are inserted by one head and a tuple for each of them. -/
theorem seedContent_keyed_eq_ok (htable : buildTable false resource = .ok table) (hne : records ≠ [])
    {script : String} :
    seedContent resource (.list (records.map KeyedRecord.toValue)) = .ok script ↔
      (∀ name ∈ recordKeys records, name ∈ table.columnNames) ∧
        (∀ record ∈ records, record.HasLiterals (seedColumns table records)) ∧
          script = seedScript table (records.map (KeyedRecord.row (seedColumns table records))) := by
  have hsome : (Value.list (records.map KeyedRecord.toValue)).isNothing = false := by
    simpa [Value.isNothing] using hne
  have hrows : ∀ rows,
      records.mapM (fun record => (seedColumns table records).mapM record.cell) = .ok rows ↔
        (∀ record ∈ records, record.HasLiterals (seedColumns table records)) ∧
          rows = records.map (KeyedRecord.row (seedColumns table records)) := fun rows =>
    Outcome.mapM_eq_ok_iff fun record _ row => mapM_cell_eq_ok
  rw [seedContent, hsome, if_neg Bool.false_ne_true, htable, Outcome.bind_eq_ok]
  simp only [Except.ok.injEq, exists_eq_left', Outcome.bind_eq_ok,
    seedRows_eq_ok (columnNames_nodup_of_buildTable htable)]
  constructor
  · rintro ⟨rows, ⟨hknown, hmade⟩, hscript⟩
    obtain ⟨hliterals, rfl⟩ := (hrows rows).mp hmade
    exact ⟨hknown, hliterals, (Except.ok.inj hscript).symm⟩
  · rintro ⟨hknown, hliterals, rfl⟩
    exact ⟨_, ⟨hknown, (hrows _).mpr ⟨hliterals, rfl⟩⟩, rfl⟩

/-- The script that inserts tuples into columns. -/
def insertionScript (table : String) (columns : List String) (tuples : String) : String :=
  "-- Seed " ++ table ++ "\n" ++ insertionHead table columns ++ "\nVALUES\n  " ++ tuples ++ ";\n"

theorem insertionScript_inj {name : String} {columns : List String} {tuples tuples' : String} :
    insertionScript name columns tuples = insertionScript name columns tuples' ↔ tuples = tuples' := by
  rw [insertionScript, insertionScript, String.append_left_inj, String.append_right_inj]

/-- The second line of a script of seed data is the head of its insertion. -/
theorem linesOf_insertionScript {name : String} {columns : List String} (htable : Naming.IsPlain name)
    (hcolumns : ∀ column ∈ columns, Naming.IsPlain column) (tuples : String) :
    (Text.linesOf (insertionScript name columns tuples))[1]? = some (insertionHead name columns) := by
  have hcomment : '\n' ∉ ("-- Seed " ++ name).toList :=
    Text.not_mem_append (by decide) (htable.not_mem (by decide))
  have hscript : insertionScript name columns tuples =
      ("-- Seed " ++ name) ++ String.singleton '\n' ++
        (insertionHead name columns ++ String.singleton '\n' ++ ("VALUES\n  " ++ tuples ++ ";\n")) := by
    have hkeyword : "\nVALUES\n  " = String.singleton '\n' ++ "VALUES\n  " := by decide
    have hfeed : "\n" = String.singleton '\n' := by decide
    rw [insertionScript, hkeyword, hfeed]
    simp only [String.append_assoc]
  rw [Text.linesOf, hscript, Text.partsAt_append hcomment,
    Text.partsAt_append (lineFeed_not_mem_insertionHead htable hcolumns)]
  rfl

/-- How the records that have a key are inserted. -/
structure ListsKeys (table : Sql.Table) (records : List KeyedRecord) (content : String) : Prop where
  /-- No column is listed twice, and listed are the keys of records. -/
  names_nodup : ((seedColumns table records).map Sql.Column.name).Nodup
  mem_names : ∀ name, name ∈ (seedColumns table records).map Sql.Column.name ↔
    ∃ record ∈ records, name ∈ record.names
  /-- The second line of the script lists these columns. -/
  listed : (Text.linesOf content)[1]?.bind Sql.readHead =
    some (table.name, (seedColumns table records).map Sql.Column.name)
  /-- The head is that of every record. -/
  heads : ∀ record ∈ records,
    recordRow table ((recordKeys records).eraseDups.map .text) record.toValue =
        .ok (record.row (seedColumns table records)) ∧
      (insertionParts (insertion table (record.row (seedColumns table records)))).1 =
        insertionHead table.name ((seedColumns table records).map Sql.Column.name)
  /-- The entries of a tuple are literals of the record. -/
  literals : ∀ record ∈ records, record.HasLiterals (seedColumns table records)
  /-- There is a tuple for each record, and the clause behind those that leave their key. -/
  content_eq : content = insertionScript table.name ((seedColumns table records).map Sql.Column.name)
    (String.intercalate ",\n  " (records.map fun record =>
      record.tuple (seedColumns table records) ++ keyClause (record.leavesKey records)))
  /-- There are tuples alone, but for a clause behind the last. -/
  tuples_iff : (∃ clause, content =
      insertionScript table.name ((seedColumns table records).map Sql.Column.name)
        (String.intercalate ",\n  " (records.map (KeyedRecord.tuple (seedColumns table records))) ++
          keyClause clause)) ↔
    ∀ record ∈ records.dropLast, record.leavesKey records = false

theorem seedContent_eq_unknown (htable : buildTable false resource = .ok table) (hne : records ≠ [])
    {who : String} {columns : List String} :
    seedContent resource (.list (records.map KeyedRecord.toValue)) = .error (.unknownColumns who columns) ↔
      unknownNames table records ≠ [] ∧ who = resource.name ∧
        columns = (unknownNames table records).eraseDups := by
  have hsome : (Value.list (records.map KeyedRecord.toValue)).isNothing = false := by
    simpa [Value.isNothing] using hne
  rw [← seedRows_eq_unknown, seedContent, hsome, if_neg Bool.false_ne_true, htable, Outcome.bind_eq_error]
  simp [Outcome.bind_eq_error, pure, Except.pure]

theorem run_seed_eq_unknown {v : Value} {who : String} {columns : List String} {before after : Sequence} :
    run (seed resource v) before = (.error (.unknownColumns who columns), after) ↔
      seedContent resource v = .error (.unknownColumns who columns) ∧ after = before := by
  rw [seed, run_issue]
  cases seedContent resource v with
  | error fault => simp [eq_comm]
  | ok text =>
      cases htoken : before.token with
      | ok token => simp
      | error fault =>
          refine iff_of_false (fun h => ?_) (fun h => ?_)
          · obtain rfl := Except.error.inj (Prod.mk.inj h).1
            rcases token_eq_error htoken with hlong | ⟨reason, hwidth⟩
            · cases hlong
            · cases hwidth
          · cases h.1

theorem mem_recordKeys {name : String} :
    name ∈ recordKeys records ↔ ∃ record ∈ records, name ∈ record.names := List.mem_flatMap

theorem mem_seedColumns_names (hknown : ∀ name ∈ recordKeys records, name ∈ table.columnNames) {name : String} :
    name ∈ (seedColumns table records).map Sql.Column.name ↔ name ∈ recordKeys records := by
  rw [seedColumns, columnsAmong, List.mem_map]
  constructor
  · rintro ⟨column, hcolumn, rfl⟩
    exact List.contains_iff_mem.mp (List.mem_filter.mp hcolumn).2
  · intro hname
    obtain ⟨column, hcolumn, rfl⟩ := List.mem_map.mp (hknown name hname)
    exact ⟨column, List.mem_filter.mpr ⟨hcolumn, List.contains_iff_mem.mpr hname⟩, rfl⟩

/-- The scripts of records of which some has a key. -/
theorem listsKeys_seedScript (hplain : ∀ name ∈ resource.fieldNames, Naming.IsPlain name)
    (htable : buildTable false resource = .ok table) (hgiven : recordKeys records ≠ [])
    (hknown : ∀ name ∈ recordKeys records, name ∈ table.columnNames)
    (hliterals : ∀ record ∈ records, record.HasLiterals (seedColumns table records)) :
    ListsKeys table records
      (seedScript table (records.map (KeyedRecord.row (seedColumns table records)))) := by
  have hof := tableOf_of_buildTable htable
  have hnodup := columnNames_nodup_of_buildTable htable
  have hname : Naming.IsPlain table.name := tableOf_name hof ▸ Naming.isPlain_tableName resource.name
  have hcolumns : ∀ column ∈ seedColumns table records, Naming.IsPlain column.name :=
    fun column hcolumn => isPlain_tableColumn hplain hof (List.mem_of_mem_filter hcolumn)
  have hnames : ∀ name ∈ (seedColumns table records).map Sql.Column.name, Naming.IsPlain name := by
    intro name hmem
    obtain ⟨column, hcolumn, rfl⟩ := List.mem_map.mp hmem
    exact hcolumns column hcolumn
  have hne : (seedColumns table records).map Sql.Column.name ≠ [] := by
    obtain ⟨name, hmem⟩ := List.exists_mem_of_ne_nil _ hgiven
    exact List.ne_nil_of_mem ((mem_seedColumns_names hknown).mpr hmem)
  have hsome : seedColumns table records ≠ [] := fun hnil => hne (by rw [hnil]; rfl)
  have hrecords : records ≠ [] := by
    rintro rfl
    exact hgiven rfl
  have hrow : ∀ record : KeyedRecord, (record.row (seedColumns table records)).map (·.1) =
      seedColumns table records := by
    intro record
    rw [KeyedRecord.row, List.map_map]
    exact List.map_id' _
  have hscript : seedScript table (records.map (KeyedRecord.row (seedColumns table records))) =
      insertionScript table.name ((seedColumns table records).map Sql.Column.name)
        (String.intercalate ",\n  " (records.map fun record =>
          record.tuple (seedColumns table records) ++ keyClause (record.leavesKey records))) := by
    rw [seedScript_eq hsome (List.map_eq_nil_iff.not.mpr hrecords) ?_ hname hcolumns, insertionScript,
      List.map_map]
    · congr 3
      apply List.map_congr_left
      intro record hrecord
      exact rowText_keyed htable (hliterals record hrecord)
    · intro row hmem
      obtain ⟨record, -, rfl⟩ := List.mem_map.mp hmem
      exact hrow record
  exact
    { names_nodup := (hnodup.sublist (List.filter_sublist.map _))
      mem_names := fun name => (mem_seedColumns_names hknown).trans mem_recordKeys
      listed := by
        rw [hscript, linesOf_insertionScript hname hnames, Option.bind_some,
          readHead_insertionHead hne hname hnames]
      heads := by
        intro record hrecord
        refine ⟨?_, ?_⟩
        · rw [recordRow_eq_ok hnodup fun name hmem => hknown name (List.mem_eraseDups.mp hmem),
            columnsAmong_eraseDups]
          exact mapM_cell_eq_ok.mpr ⟨hliterals record hrecord, rfl⟩
        · rw [insertionParts_of_columns hsome (hrow record) hname hcolumns]
      literals := hliterals
      content_eq := hscript
      tuples_iff := by
        rw [hscript]
        simp only [insertionScript_inj]
        exact intercalate_clauses_iff _ _ }

/-- **Seed data lists its keys.** Records are refused for columns exactly if some of their keys are no
columns of the table, which are then named, each where it first occurs, and no token is taken. Otherwise
a migration is made exactly if all values have literals and a token can be taken. If some record has a key,
the migration lists the keys that occur, each once, with one head for all records and a tuple for each of
them in order, whose entries are the literals of the record for the listed columns. These tuples follow
one another exactly if only the last record leaves its key to the database while some record gives one;
the clause behind any other tuple ends them. -/
theorem seed_lists_keys (hplain : ∀ name ∈ resource.fieldNames, Naming.IsPlain name)
    (htable : buildTable false resource = .ok table) (hne : records ≠ []) (before : Sequence) :
    (∀ who columns after,
      run (seed resource (.list (records.map KeyedRecord.toValue))) before =
          (.error (.unknownColumns who columns), after) ↔
        (∃ record ∈ records, ∃ name ∈ record.names, name ∉ table.columnNames) ∧ who = resource.name ∧
          columns = (unknownNames table records).eraseDups ∧ after = before) ∧
      ((∃ artifact after,
          run (seed resource (.list (records.map KeyedRecord.toValue))) before = (.ok artifact, after)) ↔
        (∀ record ∈ records, ∀ name ∈ record.names, name ∈ table.columnNames) ∧
          (∀ record ∈ records, record.HasLiterals (seedColumns table records)) ∧
            ∃ token, before.token = .ok token) ∧
      ∀ artifact after,
        run (seed resource (.list (records.map KeyedRecord.toValue))) before = (.ok artifact, after) →
          (∃ record ∈ records, record ≠ []) → ListsKeys table records artifact.content := by
  have hknown : (∀ name ∈ recordKeys records, name ∈ table.columnNames) ↔
      ∀ record ∈ records, ∀ name ∈ record.names, name ∈ table.columnNames :=
    ⟨fun h record hrecord name hname => h name (mem_recordKeys.mpr ⟨record, hrecord, hname⟩),
      fun h name hname =>
        have ⟨record, hrecord, hmem⟩ := mem_recordKeys.mp hname
        h record hrecord name hmem⟩
  have hunknown : unknownNames table records ≠ [] ↔
      ∃ record ∈ records, ∃ name ∈ record.names, name ∉ table.columnNames := by
    rw [ne_eq, unknownNames_eq_nil, hknown]
    push Not
    rfl
  refine ⟨fun who columns after => ?_, ?_, ?_⟩
  · rw [run_seed_eq_unknown, seedContent_eq_unknown htable hne, hunknown, and_assoc, and_assoc]
  · rw [← hknown]
    simp only [seed, run_issue_eq_ok, seedContent_keyed_eq_ok htable hne]
    constructor
    · rintro ⟨artifact, after, text, token, ⟨hall, hliterals, -⟩, htoken, -, -⟩
      exact ⟨hall, hliterals, token, htoken⟩
    · rintro ⟨hall, hliterals, token, htoken⟩
      exact ⟨_, _, _, token, ⟨hall, hliterals, rfl⟩, htoken, rfl, rfl⟩
  · rintro artifact after hrun ⟨record, hrecord, hsome⟩
    obtain ⟨text, token, hcontent, -, rfl, -⟩ := run_issue_eq_ok.mp hrun
    obtain ⟨hall, hliterals, rfl⟩ := (seedContent_keyed_eq_ok htable hne).mp hcontent
    obtain ⟨entry, rest, rfl⟩ := List.exists_cons_of_ne_nil hsome
    have hgiven : recordKeys records ≠ [] :=
      List.ne_nil_of_mem (mem_recordKeys.mpr ⟨_, hrecord, List.mem_cons_self⟩)
    exact listsKeys_seedScript hplain htable hgiven hall hliterals

end Resource

/-- Authors under keys that are no columns, besides those that are. -/
def strangeAuthors : List KeyedRecord :=
  [[("nick", .text "x")], [("email", .text "a"), ("age", .int 7), ("nick", .null)]]

/-- An author with an address and none, and one with a moment of its own. -/
def raggedAuthors : List KeyedRecord :=
  [[("email", .text "a")], [("createdAt", .text "2024"), ("email", .text "b")]]

/-- Authors of whom the first has no key and the second has one. -/
def keylessAuthors : List KeyedRecord :=
  [[("email", .text "a")], [("id", .text "1"), ("email", .text "b")]]

theorem seed_lists_keys_authors :
    (∀ before, run (seed Blog.author (.list (strangeAuthors.map KeyedRecord.toValue))) before =
      (.error (.unknownColumns "Author" ["nick", "age"]), before)) ∧
    ∃ artifact after,
      run (seed Blog.author (.list (raggedAuthors.map KeyedRecord.toValue))) ⟨"202403010930", 1, 4, []⟩ =
          (.ok artifact, after) ∧
        ListsKeys authors raggedAuthors artifact.content := by
  have hplain : ∀ name ∈ Blog.author.fieldNames, Naming.IsPlain name := by decide
  have htable : buildTable false Blog.author = .ok authors := by decide +kernel
  have htoken : Sequence.token ⟨"202403010930", 1, 4, []⟩ = .ok "202403010930_0001" := by
    decide +kernel
  refine ⟨fun before => ?_, ?_⟩
  · obtain ⟨hrefused, -, -⟩ := @seed_lists_keys _ _ strangeAuthors hplain htable (by decide) before
    exact (hrefused _ _ _).mpr ⟨by decide +kernel, rfl, by decide +kernel, rfl⟩
  · obtain ⟨-, hmade, hlists⟩ :=
      @seed_lists_keys _ _ raggedAuthors hplain htable (by decide) ⟨"202403010930", 1, 4, []⟩
    obtain ⟨artifact, after, hrun⟩ := hmade.mpr ⟨by decide +kernel, by decide +kernel, _, htoken⟩
    exact ⟨artifact, after, hrun, hlists artifact after hrun (by decide)⟩

/-- The clause behind the first tuple ends the tuples: there is one for two records. -/
theorem seed_tuples_cut_short_authors :
    buildTable false Blog.author = .ok authors ∧ keylessAuthors.length = 2 ∧
      ((run (seed Blog.author (.list (keylessAuthors.map KeyedRecord.toValue)))
          ⟨"202403010930", 1, 4, []⟩).1.toOption.bind
            fun artifact => Sql.readSeed artifact.content) =
        some ⟨"authors", ["id", "email"], [[.null, .text "a"]]⟩ := by
  decide +kernel

end Migration

end ApiScaffold
