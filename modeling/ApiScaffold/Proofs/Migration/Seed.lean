import Mathlib
import ApiScaffold.Proofs.Check.Accepted
import ApiScaffold.Proofs.Issuing
import ApiScaffold.Proofs.Migration.SeedRows
import ApiScaffold.Proofs.Naming.Identifier
import ApiScaffold.Proofs.Sql.Insertion

/-! Seed data, read from the script that inserts it. Every row of the script denotes the values of its
record, whatever the texts in it hold, up to the first record that leaves its key to the database though
others give theirs: the clause behind its row ends the rows of the statement. -/

namespace ApiScaffold.Migration

open Sql.Reading Sequence

/-! ### Heads of insertions -/

/-- No capital V begins a text or follows a blank in it. -/
def NoKeyword (chars : List Char) : Prop := (' ' :: chars).IsChain fun a b => a = ' ' → b ≠ 'V'

instance (chars : List Char) : Decidable (NoKeyword chars) :=
  inferInstanceAs (Decidable (List.IsChain _ _))

theorem NoKeyword.append {chars others : List Char} (h : NoKeyword chars) (hothers : NoKeyword others) :
    NoKeyword (chars ++ others) := by
  rw [NoKeyword, List.isChain_cons] at hothers
  rw [NoKeyword, ← List.cons_append, List.isChain_append]
  exact ⟨h, hothers.2, fun a _ b hb _ => hothers.1 b hb rfl⟩

theorem noKeyword_of_no_blank {chars : List Char} (hblank : ' ' ∉ chars)
    (hfirst : ∀ c ∈ chars.head?, c ≠ 'V') : NoKeyword chars := by
  rw [NoKeyword, List.isChain_cons]
  refine ⟨fun c hc _ => hfirst c hc, ?_⟩
  clear hfirst
  induction chars with
  | nil => exact .nil
  | cons c chars ih =>
      rw [List.mem_cons, not_or] at hblank
      rw [List.isChain_cons]
      exact ⟨fun _ _ heq => absurd heq.symm hblank.1, ih hblank.2⟩

theorem NoKeyword.intercalate {separator : List Char} {groups : List (List Char)}
    (h : NoKeyword separator) (hgroups : ∀ group ∈ groups, NoKeyword group) :
    NoKeyword (List.intercalate separator groups) := by
  have hnil : NoKeyword [] := by decide
  induction groups with
  | nil => exact hnil
  | cons group groups ih =>
      obtain ⟨hgroup, hrest⟩ := List.forall_mem_cons.mp hgroups
      cases groups with
      | nil =>
          rw [List.intercalate_singleton]
          exact hgroup
      | cons other groups =>
          rw [List.intercalate_cons_cons]
          exact (hgroup.append h).append (ih hrest)

/-- A text is split at the keyword behind it. -/
theorem splitAtWord_values {head : List Char} (h : NoKeyword head) (rest : List Char) :
    splitAtWord " VALUES ".toList (head ++ " VALUES ".toList ++ rest) = (head, rest) := by
  have hword : " VALUES ".toList = ' ' :: 'V' :: "ALUES ".toList := by decide
  -- What begins the head does not matter: the keyword is not found at a place within it, since its first
  -- two letters never stand together there.
  replace h : head.IsChain fun a b => a = ' ' → b ≠ 'V' := h.tail
  rw [hword]
  induction head with
  | nil => simp [splitAtWord]
  | cons c head ih =>
      have hprefix : (' ' :: 'V' :: "ALUES ".toList).isPrefixOf
          (c :: (head ++ ' ' :: 'V' :: "ALUES ".toList ++ rest)) = false := by
        cases head with
        | nil => simp [List.isPrefixOf]
        | cons d head =>
            have hnext := (List.isChain_cons.mp h).1 d rfl
            by_cases hblank : c = ' '
            · simp [List.isPrefixOf, Ne.symm (hnext hblank)]
            · simp [List.isPrefixOf, Ne.symm hblank]
      rw [List.cons_append, List.cons_append, splitAtWord, hprefix, if_neg Bool.false_ne_true,
        ih h.tail]

theorem noKeyword_identifier {name : String} (h : Naming.IsPlain name) :
    NoKeyword (Sql.identifier name).toList := by
  rw [Sql.identifier]
  -- Quoted names begin with a mark, and bare ones are equal to what they are in small letters.
  split
  · refine noKeyword_of_no_blank ?_ ?_
    · intro hblank
      rcases Sql.mem_enclosed hblank with hmark | hname
      · cases hmark
      · exact h.not_mem (by decide) hname
    · rw [Sql.enclosed, String.toList_ofList, List.cons_append, List.head?_cons]
      rintro c ⟨⟩
      decide
  · rename_i hbare
    refine noKeyword_of_no_blank (h.not_mem (by decide)) ?_
    rintro c hc rfl
    have hlower : Text.lower name = name := by
      simpa using (Bool.or_eq_false_iff.mp (Bool.eq_false_of_not_eq_true hbare)).2
    obtain ⟨rest, hname⟩ : ∃ rest, name.toList = 'V' :: rest := by
      rw [Option.mem_def, List.head?_eq_some_iff] at hc
      exact hc
    have hsmall : (Text.lower name).toList.head? = some 'v' := by
      rw [Text.lower, String.toList_ofList, hname]
      rfl
    rw [hlower, hname] at hsmall
    cases hsmall

/-- The text of an insertion up to its values. -/
def insertionHead (table : String) (columns : List String) : String :=
  "INSERT INTO " ++ Sql.identifier table ++ " " ++ Sql.identifierList columns

theorem noKeyword_insertionHead {table : String} {columns : List String}
    (htable : Naming.IsPlain table) (hcolumns : ∀ name ∈ columns, Naming.IsPlain name) :
    NoKeyword (insertionHead table columns).toList := by
  have hopens : NoKeyword "(".toList := by decide
  have hcloses : NoKeyword ")".toList := by decide
  have hcomma : NoKeyword ", ".toList := by decide
  have hinsert : NoKeyword "INSERT INTO ".toList := by decide
  have hblank : NoKeyword " ".toList := by decide
  have hnames : NoKeyword (String.intercalate ", " (columns.map Sql.identifier)).toList := by
    rw [String.toList_intercalate]
    refine hcomma.intercalate fun group hgroup => ?_
    obtain ⟨text, htext, rfl⟩ := List.mem_map.mp hgroup
    obtain ⟨name, hname, rfl⟩ := List.mem_map.mp htext
    exact noKeyword_identifier (hcolumns name hname)
  simp only [insertionHead, Sql.identifierList, String.toList_append]
  exact ((hinsert.append (noKeyword_identifier htable)).append hblank).append
    ((hopens.append hnames).append hcloses)

/-- The keyword behind the names of the columns tells the head of an insertion from its row. -/
theorem insertionParts_insertion {table : Sql.Table} {row : Row} (hne : row ≠ [])
    (htable : Naming.IsPlain table.name) (hrow : ∀ cell ∈ row, Naming.IsPlain cell.1.name) :
    insertionParts (insertion table row) =
      (insertionHead table.name (row.map fun cell => cell.1.name), rowText row) := by
  have hcolumns : ∀ name ∈ row.map (fun cell => cell.1.name), Naming.IsPlain name := by
    intro name hname
    obtain ⟨cell, hcell, rfl⟩ := List.mem_map.mp hname
    exact hrow cell hcell
  have htext : insertion table row =
      insertionHead table.name (row.map fun cell => cell.1.name) ++ " VALUES " ++ rowText row := by
    rw [insertion, if_neg (by simpa using hne)]
    rfl
  rw [insertionParts, htext, String.toList_append, String.toList_append,
    splitAtWord_values (noKeyword_insertionHead htable hcolumns)]
  simp only [String.ofList_toList]

/-! ### Rows in a script -/

/-- The tokens behind a row, if its key is left to the database. -/
def clauseTokens (lacks : Bool) : List Sql.Token :=
  if lacks then [.word "RETURNING", .word primaryKey] else []

theorem isReturning_clauseTokens (lacks : Bool) : Sql.isReturning (clauseTokens lacks) = true := by
  cases lacks <;> rfl

theorem reads_row (columns : List Sql.Column) (record : SeedRecord) :
    Reads (rowText (record.row columns)).toList
      (Sql.valueTokens (clauseTokens (lacksKey (record.row columns))) (record.literals columns)) := by
  have hopens : Whole "(".toList [.opens] := by decide
  have hcloses : Whole ")".toList [.closes] := by decide
  have hcomma : Whole (',' :: [' ']) [.comma] := by decide
  have hclause : Reads (if lacksKey (record.row columns) then
      " RETURNING " ++ Sql.identifier primaryKey else "").toList
        (clauseTokens (lacksKey (record.row columns))) := by
    cases lacksKey (record.row columns) with
    | false => exact .nil
    | true => exact ⟨[.word "RETURNING"], .word primaryKey.toList, _, by decide, rfl, rfl⟩
  have hliterals : List.Forall₂ Reads
      ((record.literals columns).map fun literal => literal.written.toList)
      ((record.literals columns).map fun literal => [literal.token]) := by
    rw [List.forall₂_map_left_iff, List.forall₂_map_right_iff, List.forall₂_same]
    exact fun literal _ => Sql.reads_literal literal
  have hcells : (record.row columns).map (·.2) = (record.literals columns).map Sql.Literal.written := by
    simp [SeedRecord.row, SeedRecord.literals]
  have hrow := hopens.append (reads_intercalate hcomma (by decide) hliterals
    (hcloses.append hclause) (.append (by decide) (by decide) _))
  rw [rowText, hcells]
  simp only [String.toList_append, String.toList_intercalate, List.map_map, List.append_assoc]
  exact hrow

/-! ### Scripts -/

section Script

variable {table : Sql.Table} {columns : List Sql.Column} {records : List SeedRecord}

theorem insertionParts_of_columns {row : Row} (hcolumns : columns ≠ []) (hrow : row.map (·.1) = columns)
    (htable : Naming.IsPlain table.name) (hplain : ∀ column ∈ columns, Naming.IsPlain column.name) :
    insertionParts (insertion table row) =
      (insertionHead table.name (columns.map Sql.Column.name), rowText row) := by
  have hnames : row.map (fun cell => cell.1.name) = columns.map Sql.Column.name := by
    rw [← hrow, List.map_map]
    rfl
  rw [insertionParts_insertion, hnames]
  · rintro rfl
    exact hcolumns hrow.symm
  · exact htable
  · intro cell hcell
    exact hplain cell.1 (hrow ▸ List.mem_map_of_mem hcell)

/-- Rows of the same columns are inserted with one head. -/
theorem seedScript_eq {rows : List Row} (hcolumns : columns ≠ []) (hrows : rows ≠ [])
    (hsame : ∀ row ∈ rows, row.map (·.1) = columns)
    (htable : Naming.IsPlain table.name) (hplain : ∀ column ∈ columns, Naming.IsPlain column.name) :
    seedScript table rows =
      "-- Seed " ++ table.name ++ "\n" ++ insertionHead table.name (columns.map Sql.Column.name) ++
        "\nVALUES\n  " ++ String.intercalate ",\n  " (rows.map rowText) ++ ";\n" := by
  have hparts : rows.map (fun row => insertionParts (insertion table row)) =
      rows.map fun row => (insertionHead table.name (columns.map Sql.Column.name), rowText row) :=
    List.map_congr_left fun row hrow => insertionParts_of_columns hcolumns (hsame row hrow) htable hplain
  have hhead : ((rows.map fun row => (insertionHead table.name (columns.map Sql.Column.name),
      rowText row)).getLast?.map (·.1)).getD "" =
        insertionHead table.name (columns.map Sql.Column.name) := by
    rw [List.getLast?_map, List.getLast?_eq_some_getLast hrows]
    rfl
  rw [seedScript, hparts]
  simp only [hhead, List.map_map]
  rfl

/-- The tokens of the values of records. -/
def seedValues (columns : List Sql.Column) (records : List SeedRecord) : List Sql.Token :=
  List.intercalate [.comma] (records.map fun record =>
    Sql.valueTokens (clauseTokens (lacksKey (record.row columns))) (record.literals columns))

theorem reads_seedScript (hcolumns : columns ≠ []) (hrecords : records ≠ [])
    (htable : Naming.IsPlain table.name) (hplain : ∀ column ∈ columns, Naming.IsPlain column.name) :
    Reads (seedScript table (records.map (SeedRecord.row columns))).toList
      (Sql.insertionTokens table.name (columns.map Sql.Column.name) (seedValues columns records) ++
        [.ends]) := by
  have hfeed : Naming.isNameChar '\n' = false := by decide
  have hcomment : Whole ("-- Seed " ++ table.name ++ "\n").toList [] := by
    have hlabel : '\n' ∉ " Seed ".toList ++ table.name.toList := by
      rw [List.mem_append, not_or]
      exact ⟨by decide, htable.not_mem hfeed⟩
    have hwhole := whole_comment hlabel
    rw [String.toList_append, String.toList_append]
    exact hwhole
  have hinsert : Whole "INSERT INTO ".toList [.word "INSERT", .word "INTO"] := by decide
  have hblank : Whole " ".toList [] := by decide
  have hkeyword : Whole "\nVALUES\n  ".toList [.word "VALUES"] := by decide
  have hcomma : Whole (',' :: "\n  ".toList) [.comma] := by decide
  have hends : Reads ";\n".toList [.ends] := ⟨[.ends], .between, [], by decide, rfl, rfl⟩
  have hrows : List.Forall₂ Reads (records.map fun record => (rowText (record.row columns)).toList)
      (records.map fun record => Sql.valueTokens (clauseTokens (lacksKey (record.row columns)))
        (record.literals columns)) := by
    rw [List.forall₂_map_left_iff, List.forall₂_map_right_iff, List.forall₂_same]
    exact fun record _ => reads_row columns record
  have hnames : Reads (Sql.identifierList (columns.map Sql.Column.name)).toList _ :=
    Sql.reads_identifierList fun name hname => by
      obtain ⟨column, hcolumn, rfl⟩ := List.mem_map.mp hname
      exact (hplain column hcolumn).not_mem hfeed
  have hvalues := hkeyword.append (reads_intercalate hcomma (by decide) hrows hends (by decide))
  have hbody := hblank.append (hnames.append (.append (by decide) (by decide) _) hvalues)
  have hscript := hcomment.append (hinsert.append
    ((Sql.reads_identifier (htable.not_mem hfeed)).append (.append (by decide) (by decide) _) hbody))
  have hsame : ∀ row ∈ records.map (SeedRecord.row columns), row.map (·.1) = columns := by
    intro row hrow
    obtain ⟨record, -, rfl⟩ := List.mem_map.mp hrow
    rw [SeedRecord.row, List.map_map]
    exact List.map_id' columns
  rw [seedScript_eq hcolumns (List.map_eq_nil_iff.not.mpr hrecords) hsame htable hplain, insertionHead,
    Sql.insertionTokens, seedValues, List.map_map]
  simpa [String.toList_append, String.toList_intercalate, Function.comp_def] using hscript

/-- Scripts of seed data are read back up to the first row whose key is left to the database. -/
theorem readSeed_seedScript (hcolumns : columns ≠ []) (hrecords : records ≠ [])
    (htable : Naming.IsPlain table.name) (hplain : ∀ column ∈ columns, Naming.IsPlain column.name) :
    Sql.readSeed (seedScript table (records.map (SeedRecord.row columns))) =
      some ⟨table.name, columns.map Sql.Column.name,
        (throughFirst (fun record => lacksKey (record.row columns)) records).map
          (SeedRecord.literals columns)⟩ := by
  have hends : Sql.Token.ends ∉ Sql.insertionTokens table.name (columns.map Sql.Column.name)
      (seedValues columns records) := by
    refine Sql.ends_not_mem_insertionTokens (not_mem_intercalate (by decide) fun group hgroup => ?_) _ _
    obtain ⟨record, -, rfl⟩ := List.mem_map.mp hgroup
    refine Sql.ends_not_mem_valueTokens ?_ _
    cases lacksKey (record.row columns) <;> decide
  have hstatements : Sql.statements (seedScript table (records.map (SeedRecord.row columns))) =
      some [Sql.insertionTokens table.name (columns.map Sql.Column.name) (seedValues columns records)] := by
    rw [Sql.statements, read_eq_some (reads_seedScript hcolumns hrecords htable hplain),
      Option.bind_some, Sql.splitStatements_append hends]
    rfl
  have hliterals : ∀ record ∈ records, record.literals columns ≠ [] := fun record _ => by
    simpa [SeedRecord.literals] using hcolumns
  obtain ⟨rest, after, hvalues, hread, hafter⟩ := Sql.readRows_values hrecords hliterals
    fun record _ => isReturning_clauseTokens (lacksKey (record.row columns))
  have hstops : (fun record : SeedRecord => !(clauseTokens (lacksKey (record.row columns))).isEmpty) =
      fun record => lacksKey (record.row columns) := by
    funext record
    cases lacksKey (record.row columns) <;> rfl
  rw [hstops] at hread
  rw [Sql.readSeed, hstatements, seedValues, hvalues]
  exact Sql.readInsertion_tokens (by simpa using hcolumns) table.name hread hafter

end Script

/-! ### Seed data of a resource -/

theorem textLiteral_ne_null (s : String) : Sql.textLiteral s ≠ "NULL" := by
  intro heq
  have hmark : (Sql.textLiteral s).toList.head? = some '\'' := by
    rw [Sql.textLiteral, Sql.enclosed, String.toList_ofList]
    rfl
  rw [heq] at hmark
  cases hmark

theorem written_eq_null {v : SeedValue} : v.literal.written = "NULL" ↔ v = .null := by
  cases v with
  | null => exact ⟨fun _ => rfl, fun _ => rfl⟩
  | text s => exact iff_of_false (textLiteral_ne_null s) SeedValue.noConfusion
  | integer i => exact iff_of_false (Sql.integerText_ne_null i) SeedValue.noConfusion
  | flag b => exact iff_of_false (Sql.integerText_ne_null _) SeedValue.noConfusion

section Resource

variable {resource : ResourceSpec} {table : Sql.Table} {records : List SeedRecord}

theorem lacksKey_row (htable : tableOf false resource = .ok table) (record : SeedRecord) :
    lacksKey (record.row (usedColumns table records)) = leavesKey records record := by
  have hkey : keyColumn ∈ table.columns := by
    obtain ⟨columns, -, rfl⟩ := tableOf_eq_ok.mp htable
    exact List.mem_cons_self
  rw [Bool.eq_iff_iff, lacksKey, SeedRecord.row, List.any_map, List.any_eq_true, leavesKey,
    Bool.and_eq_true, beq_iff_eq]
  simp only [Function.comp_apply, Bool.and_eq_true, beq_iff_eq, written_eq_null, usedColumns,
    List.mem_filter]
  constructor
  · rintro ⟨column, ⟨hcolumn, hused⟩, hisKey, hnull⟩
    rw [(tableOf_isKey htable hcolumn).mp hisKey] at hused hnull
    exact ⟨hused, hnull⟩
  · rintro ⟨hused, hnull⟩
    exact ⟨keyColumn, ⟨hkey, hused⟩, rfl, hnull⟩

theorem Fits.columns_ne_nil (h : Fits table records) : usedColumns table records ≠ [] := by
  obtain ⟨record, hrecord, hne⟩ := h.given
  obtain ⟨entry, rest, rfl⟩ := List.exists_cons_of_ne_nil hne
  obtain ⟨column, hcolumn, hname⟩ := List.mem_map.mp (h.known _ hrecord entry List.mem_cons_self)
  have hused : isUsed records column.name = true := by
    rw [isUsed, List.any_eq_true]
    exact ⟨_, hrecord, List.any_eq_true.mpr ⟨entry, List.mem_cons_self, by simp [hname]⟩⟩
  exact List.ne_nil_of_mem (List.mem_filter.mpr ⟨hcolumn, hused⟩)

theorem Fits.records_ne_nil (h : Fits table records) : records ≠ [] := by
  obtain ⟨record, hrecord, -⟩ := h.given
  exact List.ne_nil_of_mem hrecord

theorem isPlain_tableColumn {withRelations : Bool} (hplain : ∀ name ∈ resource.fieldNames, Naming.IsPlain name)
    (htable : tableOf withRelations resource = .ok table) {column : Sql.Column}
    (hcolumn : column ∈ table.columns) : Naming.IsPlain column.name := by
  have hname : column.name ∈ resource.tableColumns :=
    tableOf_columnNames htable ▸ List.mem_map_of_mem hcolumn
  rcases ResourceSpec.mem_tableColumns.mp hname with hfield | hsynthetic
  · exact hplain column.name hfield
  · have hall : ∀ name ∈ serverManaged, Naming.IsPlain name := by decide
    exact hall column.name (resource.syntheticNames_subset hsynthetic)

/-- Records that fit the table of a resource are inserted, unless an integer is too long. -/
theorem seedContent_eq_ok (htable : buildTable false resource = .ok table) (hfits : Fits table records)
    {script : String} :
    seedContent resource (seedDocument records) = .ok script ↔
      Writable table records ∧
        script = seedScript table (records.map (SeedRecord.row (usedColumns table records))) := by
  have hsome : (seedDocument records).isNothing = false := by
    simpa [seedDocument, Value.isNothing] using hfits.records_ne_nil
  rw [seedContent, hsome, if_neg Bool.false_ne_true, htable, Outcome.bind_eq_ok]
  simp only [Except.ok.injEq, exists_eq_left', Outcome.bind_eq_ok,
    hfits.seedRows_eq_ok (columnNames_nodup_of_buildTable htable)]
  constructor
  · rintro ⟨rows, ⟨hwritable, rfl⟩, hscript⟩
    exact ⟨hwritable, (Except.ok.inj hscript).symm⟩
  · rintro ⟨hwritable, rfl⟩
    exact ⟨_, ⟨hwritable, rfl⟩, rfl⟩

/-- The insertion of the first records, into the columns that some record names. -/
def insertionOf (table : Sql.Table) (records first : List SeedRecord) : Sql.Insertion where
  table := table.name
  columns := (usedColumns table records).map Sql.Column.name
  rows := first.map (SeedRecord.literals (usedColumns table records))

/-- **Seed data is read back.** Of records that fit the table of a resource a migration is made exactly
if no integer in them is too long and a token can be taken. Its script is one insertion into the columns
that some record names, and its rows hold, in order, the literals of the records: of all of them exactly
if only the last one leaves its key to the database, and else of those up to the first that does. -/
theorem seed_denotes (hplain : ∀ name ∈ resource.fieldNames, Naming.IsPlain name)
    (htable : buildTable false resource = .ok table) (hfits : Fits table records) (before : Sequence) :
    ((∃ artifact after, run (seed resource (seedDocument records)) before = (.ok artifact, after)) ↔
        Writable table records ∧ ∃ token, before.token = .ok token) ∧
      ∀ artifact after, run (seed resource (seedDocument records)) before = (.ok artifact, after) →
        Sql.readSeed artifact.content =
            some (insertionOf table records (throughFirst (leavesKey records) records)) ∧
          (Sql.readSeed artifact.content = some (insertionOf table records records) ↔
            ∀ record ∈ records.dropLast, leavesKey records record = false) := by
  have hof := tableOf_of_buildTable htable
  have hname : Naming.IsPlain table.name := tableOf_name hof ▸ Naming.isPlain_tableName resource.name
  have hcolumns : ∀ column ∈ usedColumns table records, Naming.IsPlain column.name :=
    fun column hcolumn => isPlain_tableColumn hplain hof (List.mem_of_mem_filter hcolumn)
  have hread := readSeed_seedScript hfits.columns_ne_nil hfits.records_ne_nil hname hcolumns
  simp only [lacksKey_row hof] at hread
  constructor
  · simp only [seed, run_issue_eq_ok, seedContent_eq_ok htable hfits]
    constructor
    · rintro ⟨artifact, after, text, token, ⟨hwritable, -⟩, htoken, -, -⟩
      exact ⟨hwritable, token, htoken⟩
    · rintro ⟨hwritable, token, htoken⟩
      exact ⟨_, _, _, token, ⟨hwritable, rfl⟩, htoken, rfl, rfl⟩
  · intro artifact after hrun
    obtain ⟨text, token, hcontent, -, rfl, -⟩ := run_issue_eq_ok.mp hrun
    obtain ⟨-, rfl⟩ := (seedContent_eq_ok htable hfits).mp hcontent
    refine ⟨hread, ?_⟩
    rw [artifactOf, hread, ← throughFirst_eq_self]
    constructor
    · intro heq
      -- Rows beyond the first that stops would be missing, so there are none.
      have hrows := congrArg (List.length ∘ Sql.Insertion.rows) (Option.some.inj heq)
      apply (throughFirst_isPrefix (leavesKey records) records).eq_of_length
      simpa [insertionOf] using hrows
    · intro hall
      rw [hall]
      rfl

end Resource

/-- The table of authors. -/
def authors : Sql.Table :=
  ⟨"authors", [keyColumn, { name := "email", storage := .text, nullable := false, unique := true },
    timestampColumn "createdAt", timestampColumn "updatedAt"]⟩

/-- An author whose address holds quotes, a line end and the keyword, and one without an address. -/
def quotingAuthors : List SeedRecord := [[("email", .text "it's\n VALUES ('x');--")], []]

/-- The address stays one literal, and the record without one has null. -/
theorem seed_denotes_authors :
    Fits authors quotingAuthors ∧
      ∃ artifact after,
        run (seed Blog.author (seedDocument quotingAuthors)) ⟨"202403010930", 1, 4, []⟩ =
          (.ok artifact, after) ∧
        Sql.readSeed artifact.content = some
          ⟨"authors", ["email"], [[.text "it's\n VALUES ('x');--"], [.null]]⟩ := by
  have hfits : Fits authors quotingAuthors := by decide +kernel
  have hplain : ∀ name ∈ Blog.author.fieldNames, Naming.IsPlain name := by decide
  have htable : buildTable false Blog.author = .ok authors := by decide +kernel
  have hwritable : Writable authors quotingAuthors := by decide +kernel
  have htoken : Sequence.token ⟨"202403010930", 1, 4, []⟩ = .ok "202403010930_0001" := by
    decide +kernel
  obtain ⟨hmade, hread⟩ := seed_denotes hplain htable hfits ⟨"202403010930", 1, 4, []⟩
  obtain ⟨artifact, after, hrun⟩ := hmade.mpr ⟨hwritable, _, htoken⟩
  refine ⟨hfits, artifact, after, hrun, ?_⟩
  rw [((hread artifact after hrun).2).mpr (by decide +kernel)]
  decide +kernel

/-- An author without a key, and one with a key. -/
def keyedAuthors : List SeedRecord := [[("email", .text "b")], [("id", .text "1")]]

/-- The record that leaves its key to the database ends the rows: the second author is not inserted. -/
theorem seed_cut_short_authors :
    buildTable false Blog.author = .ok authors ∧ Fits authors keyedAuthors ∧
      ((run (seed Blog.author (seedDocument keyedAuthors)) ⟨"202403010930", 1, 4, []⟩).1.toOption.bind
          fun artifact => Sql.readSeed artifact.content) =
        some ⟨"authors", ["id", "email"], [[.null, .text "b"]]⟩ := by
  decide +kernel

end ApiScaffold.Migration
