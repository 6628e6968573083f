import Mathlib
import ApiScaffold.Migration.Script
import ApiScaffold.Proofs.Lists
import ApiScaffold.Proofs.Migration.Table
import ApiScaffold.Proofs.Outcome

/-! Records under keys that are texts. Their keys are gathered without repeats, in the order in which they
first occur; those that are no columns are refused, and the others are the columns of every row. -/

namespace ApiScaffold.Migration

/-! ### Records -/

/-- A record: values under keys. -/
abbrev KeyedRecord := List (String × Value)

namespace KeyedRecord

def names (record : KeyedRecord) : List String := record.map (·.1)

/-- The record as it is given. -/
def toValue (record : KeyedRecord) : Value := .mapping (record.map fun entry => (.text entry.1, entry.2))

/-- What the record has under a key, null if it lacks it. -/
def value (record : KeyedRecord) (name : String) : Value := (record.lookup name).getD .null

end KeyedRecord

/-- The keys of all records, one after another. -/
def recordKeys (records : List KeyedRecord) : List String := records.flatMap KeyedRecord.names

/-- The keys of records that are no columns. -/
def unknownNames (table : Sql.Table) (records : List KeyedRecord) : List String :=
  (recordKeys records).filter fun name => !table.columnNames.contains name

/-- The columns with the given names, in the order of the table. -/
def columnsAmong (table : Sql.Table) (names : List String) : List Sql.Column :=
  table.columns.filter fun column => names.contains column.name

/-- The literal of a value in a column. -/
def literalOf (storage : Storage) (v : Value) : Except GenerationFault String := do
  let cell ← (cellValue storage v).mapError .record
  cellText storage cell

/-- The cell of a record in a column. -/
def KeyedRecord.cell (record : KeyedRecord) (column : Sql.Column) :
    Except GenerationFault (Sql.Column × String) :=
  (literalOf column.storage (record.value column.name)).map (column, ·)

/-! ### Keys of records -/

theorem sameKey_text (s t : String) : Value.sameKey (.text s) (.text t) = (s == t) := by
  simp [Value.sameKey, Value.asNumber?]

theorem entry?_toValue (record : KeyedRecord) (name : String) :
    Value.entry? (record.map fun entry => (.text entry.1, entry.2)) (.text name) =
      record.lookup name := by
  induction record with
  | nil => rfl
  | cons entry rest ih =>
      rw [Value.entry?] at ih ⊢
      rw [List.map_cons, List.find?_cons, sameKey_text, List.lookup_cons]
      by_cases h : name = entry.1
      · rw [h, beq_self_eq_true]
        rfl
      · rw [beq_false_of_ne h, beq_false_of_ne (Ne.symm h)]
        exact ih

theorem lookUp_toValue (record : KeyedRecord) (name : String) :
    lookUp record.toValue (.text name) = .ok (record.value name) := by
  rw [KeyedRecord.toValue, lookUp, entry?_toValue, KeyedRecord.value]

theorem elements_toValue (record : KeyedRecord) :
    elements record.toValue = .ok (record.names.map .text) := by
  rw [KeyedRecord.toValue, elements, KeyedRecord.names, List.map_map, List.map_map]
  rfl

theorem hasKey_texts (members : List String) (name : String) :
    Value.hasKey (members.map .text) (.text name) = members.contains name := by
  rw [Value.hasKey, List.any_map, List.contains_eq_any_beq]
  exact congrArg members.any (funext fun other => sameKey_text name other)

/-- Texts join members that are there already in the order in which they first occur. -/
theorem foldl_insertMember_texts (names members : List String) :
    (names.map Value.text).foldl Value.insertMember (members.map .text) =
      (members ++ (names.filter fun name => !members.contains name).eraseDups).map .text := by
  induction names generalizing members with
  | nil => simp
  | cons first rest ih =>
      rw [List.map_cons, List.foldl_cons, Value.insertMember, hasKey_texts, List.filter_cons]
      cases hseen : members.contains first with
      | true => simpa using ih members
      | false =>
          have hmore := ih (members ++ [first])
          have hothers : (rest.filter fun name => !(members ++ [first]).contains name) =
              (rest.filter fun name => !members.contains name).filter fun name => !name == first := by
            rw [List.filter_filter]
            refine List.filter_congr fun name _ => ?_
            rw [Bool.eq_iff_iff]
            simp [and_comm]
          rw [hothers, List.map_append] at hmore
          simpa [List.eraseDups_cons] using hmore

theorem distinct_texts (names : List String) :
    distinct (names.map .text) = names.eraseDups.map .text := by
  have hall := foldl_insertMember_texts names []
  simpa [distinct] using hall

/-- The keys of a seed are those of its records, each where it first occurs. -/
theorem seedKeys_eq (records : List KeyedRecord) :
    seedKeys (records.map KeyedRecord.toValue) = .ok ((recordKeys records).eraseDups.map .text) := by
  have helements : (records.map KeyedRecord.toValue).mapM elements =
      .ok (records.map fun record => record.names.map Value.text) := by
    rw [List.mapM_map]
    exact Outcome.mapM_eq_ok_map fun record _ => elements_toValue record
  rw [seedKeys, helements, ← distinct_texts, recordKeys, List.map_flatMap, List.flatMap_def]
  rfl

theorem unknownKeys_toValue (table : Sql.Table) (record : KeyedRecord) :
    unknownKeys table record.toValue =
      .ok ((record.names.filter fun name => !table.columnNames.contains name).map .text) := by
  have hjudged : (record.names.map Value.text).mapM
      (fun key => (isUnknown table key).map (key, ·)) =
        .ok (record.names.map fun name => (Value.text name, !table.columnNames.contains name)) := by
    rw [List.mapM_map]
    exact Outcome.mapM_eq_ok_map fun name _ => rfl
  rw [unknownKeys, elements_toValue, Outcome.bind_eq_ok]
  refine ⟨_, rfl, ?_⟩
  rw [hjudged, Outcome.bind_eq_ok]
  refine ⟨_, rfl, ?_⟩
  simp [List.filter_map, Function.comp_def, pure, Except.pure]

/-! ### Rows -/

theorem keyStorage_text {table : Sql.Table} {name : String} {column : Sql.Column}
    (h : table.column? name = some column) : keyStorage table (.text name) = column.storage := by
  rw [keyStorage, h]
  rfl

section Rows

variable {table : Sql.Table} {record : KeyedRecord} {names : List String}

theorem rowOf_eq (cell : String → Option Value) :
    rowOf table (names.map fun name => (name, cell name)) =
      (columnsAmong table names).mapM fun column =>
        (cellText column.storage (cell column.name)).map (column, ·) := by
  have hkept : ∀ cells : Except GenerationFault (List (Option (Sql.Column × String))),
      (cells >>= fun cells => pure (cells.filterMap id)) = cells.map (List.filterMap id) := by
    intro cells
    cases cells <;> rfl
  rw [columnsAmong, ← Outcome.mapM_filter, rowOf, hkept]
  congr 2
  funext column
  rw [lookup_map_self]
  by_cases h : column.name ∈ names
  · rw [if_pos h, if_pos (by simpa using h)]
    dsimp only
    cases cellText column.storage (cell column.name) <;> rfl
  · rw [if_neg h, if_neg (by simpa using h)]
    rfl

theorem keyStorage_column (hcolumns : table.columnNames.Nodup) {column : Sql.Column}
    (hcolumn : column ∈ table.columns) : keyStorage table (.text column.name) = column.storage := by
  obtain ⟨found, hfound, hlookup⟩ := Sql.Table.exists_column (List.mem_map_of_mem hcolumn)
  have hname : found.name = column.name := by simpa using List.find?_some hlookup
  rw [keyStorage_text hlookup, List.inj_on_of_nodup_map hcolumns hfound hcolumn hname]

/-- What a record becomes under a key, nothing if that is no cell. -/
def cellUnder (table : Sql.Table) (record : KeyedRecord) (name : String) : Option Value :=
  ((cellValue (keyStorage table (.text name)) (record.value name)).toOption).join

theorem rowValues_eq_ok {values : List (Value × Option Value)} :
    rowValues table (names.map .text) record.toValue = .ok values ↔
      (∀ name ∈ names, ∃ cell, cellValue (keyStorage table (.text name)) (record.value name) = .ok cell) ∧
        values = names.map fun name => (.text name, cellUnder table record name) := by
  rw [rowValues, List.mapM_map]
  apply Outcome.mapM_eq_ok_iff
  intro name _ entry
  rw [Function.comp_apply, lookUp_toValue, Outcome.bind_eq_ok]
  simp only [Except.ok.injEq, exists_eq_left', cellUnder]
  cases cellValue (keyStorage table (.text name)) (record.value name) with
  | error fault => simp [bind, Except.bind]
  | ok cell => simp [bind, Except.bind, pure, Except.pure, Except.toOption, eq_comm]

/-- A row has the literals of the record in the columns with the names, if there is a column for each of
these and all values have literals. -/
theorem recordRow_eq_ok (hcolumns : table.columnNames.Nodup) (hknown : ∀ name ∈ names, name ∈ table.columnNames)
    {row : Row} :
    recordRow table (names.map .text) record.toValue = .ok row ↔
      (columnsAmong table names).mapM record.cell = .ok row := by
  have hnamed : (names.map fun name => (Value.text name, cellUnder table record name)).mapM
      (fun entry => (keyName entry.1).map (·, entry.2)) =
        .ok (names.map fun name => (name, cellUnder table record name)) := by
    rw [List.mapM_map]
    exact Outcome.mapM_eq_ok_map fun name _ => rfl
  have hstorage : ∀ column ∈ columnsAmong table names,
      keyStorage table (.text column.name) = column.storage := fun column hcolumn =>
    keyStorage_column hcolumns (List.mem_of_mem_filter hcolumn)
  -- Where a value has a cell, the cell of its column has the literal of that.
  have hcell : ∀ column ∈ columnsAmong table names, ∀ cell,
      cellValue (keyStorage table (.text column.name)) (record.value column.name) = .ok cell →
        (cellText column.storage (cellUnder table record column.name)).map (column, ·) =
          record.cell column := by
    intro column hcolumn cell hmade
    rw [cellUnder, hmade, KeyedRecord.cell, literalOf, ← hstorage column hcolumn, hmade]
    rfl
  rw [recordRow, Outcome.bind_eq_ok]
  simp only [Outcome.mapError_eq_ok, rowValues_eq_ok, Outcome.bind_eq_ok]
  constructor
  · rintro ⟨values, ⟨hmade, rfl⟩, named, hall, hrow⟩
    obtain rfl := Except.ok.inj (hnamed.symm.trans hall)
    rw [rowOf_eq] at hrow
    refine (Outcome.mapM_eq_ok_congr fun column hcolumn result => ?_).mp hrow
    obtain ⟨cell, hvalue⟩ := hmade column.name (by simpa using (List.mem_filter.mp hcolumn).2)
    rw [hcell column hcolumn cell hvalue]
  · intro hrow
    have hmade : ∀ column ∈ columnsAmong table names, ∃ cell,
        cellValue (keyStorage table (.text column.name)) (record.value column.name) = .ok cell := by
      intro column hcolumn
      obtain ⟨result, -, hresult⟩ := Outcome.exists_of_mem_mapM hrow hcolumn
      obtain ⟨text, htext, -⟩ := Outcome.map_eq_ok.mp hresult
      obtain ⟨cell, hvalue, -⟩ := Outcome.bind_eq_ok.mp htext
      exact ⟨cell, (hstorage column hcolumn).symm ▸ Outcome.mapError_eq_ok.mp hvalue⟩
    refine ⟨_, ⟨fun name hname => ?_, rfl⟩, _, hnamed, ?_⟩
    · obtain ⟨column, hcolumn, rfl⟩ := List.mem_map.mp (hknown name hname)
      exact hmade column (List.mem_filter.mpr ⟨hcolumn, by simpa using hname⟩)
    · rw [rowOf_eq]
      refine (Outcome.mapM_eq_ok_congr fun column hcolumn result => ?_).mpr hrow
      obtain ⟨cell, hvalue⟩ := hmade column hcolumn
      rw [hcell column hcolumn cell hvalue]

/-- Records with keys that are no columns are refused, and the others make a row each. -/
theorem seedRows_eq (resource : String) (table : Sql.Table) (records : List KeyedRecord) :
    seedRows resource table (.list (records.map KeyedRecord.toValue)) =
      if unknownNames table records = [] then
        records.mapM fun record => recordRow table ((recordKeys records).eraseDups.map .text) record.toValue
      else .error (.unknownColumns resource (unknownNames table records).eraseDups) := by
  have hunknown : (records.map KeyedRecord.toValue).mapM (unknownKeys table) =
      .ok (records.map fun record =>
        (record.names.filter fun name => !table.columnNames.contains name).map .text) := by
    rw [List.mapM_map]
    exact Outcome.mapM_eq_ok_map fun record _ => unknownKeys_toValue table record
  have hnames : (records.map fun record =>
      (record.names.filter fun name => !table.columnNames.contains name).map Value.text).flatten =
        (unknownNames table records).map .text := by
    rw [unknownNames, recordKeys, List.filter_flatMap, List.map_flatMap, List.flatMap_def]
  have hdisplay : ∀ names : List String, (names.map Value.text).map Value.display = names := by
    intro names
    rw [List.map_map]
    exact List.map_id' names
  simp only [seedRows, elements, Except.mapError, hunknown, seedKeys_eq, bind, Except.bind, hnames,
    distinct_texts, hdisplay, List.isEmpty_map, List.mapM_map]
  by_cases hnone : unknownNames table records = []
  · rw [if_pos hnone, hnone]
    rfl
  · rw [if_neg hnone, List.isEmpty_eq_false_iff.mpr hnone]
    rfl

theorem columnsAmong_eraseDups (table : Sql.Table) (names : List String) :
    columnsAmong table names.eraseDups = columnsAmong table names := by
  rw [columnsAmong, columnsAmong]
  refine List.filter_congr fun column _ => ?_
  rw [Bool.eq_iff_iff]
  simp

theorem unknownNames_eq_nil {records : List KeyedRecord} :
    unknownNames table records = [] ↔ ∀ name ∈ recordKeys records, name ∈ table.columnNames := by
  simp [unknownNames, List.filter_eq_nil_iff]

/-- Records whose keys are columns make a row each, if all their values have literals. -/
theorem seedRows_eq_ok (hcolumns : table.columnNames.Nodup) {resource : String} {records : List KeyedRecord}
    {rows : List Row} :
    seedRows resource table (.list (records.map KeyedRecord.toValue)) = .ok rows ↔
      (∀ name ∈ recordKeys records, name ∈ table.columnNames) ∧
        records.mapM (fun record => (columnsAmong table (recordKeys records)).mapM record.cell) =
          .ok rows := by
  rw [seedRows_eq, ← unknownNames_eq_nil]
  by_cases hnone : unknownNames table records = []
  · have hknown : ∀ name ∈ (recordKeys records).eraseDups, name ∈ table.columnNames := fun name hname =>
      unknownNames_eq_nil.mp hnone name (List.mem_eraseDups.mp hname)
    rw [if_pos hnone, and_iff_right hnone, ← columnsAmong_eraseDups]
    exact Outcome.mapM_eq_ok_congr fun record _ row => recordRow_eq_ok hcolumns hknown
  · rw [if_neg hnone]
    exact iff_of_false nofun fun h => hnone h.1

theorem cellText_ne_unknown {storage : Storage} {cell : Option Value} {who : String} {names : List String} :
    cellText storage cell ≠ .error (.unknownColumns who names) := by
  unfold cellText
  split
  · exact nofun
  · split
    · exact nofun
    · split <;> exact nofun

/-- What keeps a row from being made is never a key that is no column. -/
theorem recordRow_ne_unknown {keys : List Value} {v : Value} {who : String} {names : List String} :
    recordRow table keys v ≠ .error (.unknownColumns who names) := by
  intro h
  have hrecord : ∀ {α : Type} {step : Except RecordFault α},
      step.mapError GenerationFault.record ≠ .error (.unknownColumns who names) := by
    intro α step hstep
    obtain ⟨fault, -, hfault⟩ := Outcome.mapError_eq_error.mp hstep
    cases hfault
  rcases Outcome.bind_eq_error.mp h with hvalues | ⟨values, -, h⟩
  · exact hrecord hvalues
  · rcases Outcome.bind_eq_error.mp h with hnamed | ⟨named, -, h⟩
    · exact hrecord hnamed
    · rcases Outcome.bind_eq_error.mp h with hcells | ⟨cells, -, hpure⟩
      · obtain ⟨column, -, hcell⟩ := Outcome.mapM_eq_error hcells
        split at hcell
        · cases hcell
        · rcases Outcome.bind_eq_error.mp hcell with htext | ⟨text, -, hpure⟩
          · exact cellText_ne_unknown htext
          · cases hpure
      · cases hpure

/-- Columns are unknown exactly if some keys are no columns, and then they are these, each where it first
occurs. -/
theorem seedRows_eq_unknown {resource who : String} {records : List KeyedRecord} {columns : List String} :
    seedRows resource table (.list (records.map KeyedRecord.toValue)) =
        .error (.unknownColumns who columns) ↔
      unknownNames table records ≠ [] ∧ who = resource ∧
        columns = (unknownNames table records).eraseDups := by
  rw [seedRows_eq]
  by_cases hnone : unknownNames table records = []
  · rw [if_pos hnone]
    refine iff_of_false (fun h => ?_) fun h => h.1 hnone
    obtain ⟨record, -, hrow⟩ := Outcome.mapM_eq_error h
    exact recordRow_ne_unknown hrow
  · rw [if_neg hnone]
    simp [hnone, eq_comm]

end Rows

end ApiScaffold.Migration
