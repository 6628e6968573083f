import Mathlib
import ApiScaffold.Proofs.Migration.SeedKeys
import ApiScaffold.Proofs.Sql.Insertion

/-! Rows of seed data. Records of nulls, texts, integers and flags become rows that all have the same
columns: those that some record names, in the order of the table. A record that lacks one of them has
null there. Only an integer that cannot be written is in the way. -/

namespace ApiScaffold.Migration

/-! ### Records -/

/-- What a record holds. -/
inductive SeedValue where
  | null
  | text (s : String)
  | integer (i : Int)
  | flag (b : Bool)
  deriving DecidableEq, Repr

namespace SeedValue

/-- The value as it is given. -/
def toValue : SeedValue → Value
  | .null => .null
  | .text s => .text s
  | .integer i => .int i
  | .flag b => .bool b

/-- The literal that denotes the value. A flag is one or zero. -/
def literal : SeedValue → Sql.Literal
  | .null => .null
  | .text s => .text s
  | .integer i => .integer i
  | .flag b => .integer (if b then 1 else 0)

/-- Texts belong in columns of text, integers and flags in columns of integers, null anywhere. -/
def Suits (storage : Storage) : SeedValue → Prop
  | .null => True
  | .text _ => storage = .text
  | .integer _ | .flag _ => storage = .integer

instance (storage : Storage) : (v : SeedValue) → Decidable (v.Suits storage)
  | .null => inferInstanceAs (Decidable True)
  | .text _ => inferInstanceAs (Decidable (storage = .text))
  | .integer _ | .flag _ => inferInstanceAs (Decidable (storage = .integer))

/-- An integer is short enough to be written. -/
def IsWritable : SeedValue → Prop
  | .integer i => hasIntegerText i = true
  | _ => True

instance : (v : SeedValue) → Decidable v.IsWritable
  | .integer i => inferInstanceAs (Decidable (hasIntegerText i = true))
  | .null | .text _ | .flag _ => inferInstanceAs (Decidable True)

end SeedValue

/-- A record: what it holds under its keys. -/
abbrev SeedRecord := List (String × SeedValue)

namespace SeedRecord

/-- The record as it is given. -/
def toValue (record : SeedRecord) : Value :=
  .mapping (record.map fun entry => (.text entry.1, entry.2.toValue))

/-- What the record has under a key, null if it lacks it. -/
def value (record : SeedRecord) (name : String) : SeedValue := (record.lookup name).getD .null

/-- The literals of the record for some columns. -/
def literals (columns : List Sql.Column) (record : SeedRecord) : List Sql.Literal :=
  columns.map fun column => (record.value column.name).literal

end SeedRecord

/-- Whether some record has a key. -/
def isUsed (records : List SeedRecord) (name : String) : Bool :=
  records.any fun record => record.any fun entry => entry.1 == name

/-- The columns that some record names, in the order of the table. -/
def usedColumns (table : Sql.Table) (records : List SeedRecord) : List Sql.Column :=
  table.columns.filter fun column => isUsed records column.name

/-- Records for a table: their keys are columns, there is a key, and their values suit the columns. -/
structure Fits (table : Sql.Table) (records : List SeedRecord) : Prop where
  known : ∀ record ∈ records, ∀ entry ∈ record, entry.1 ∈ table.columnNames
  given : ∃ record ∈ records, record ≠ []
  suits : ∀ record ∈ records, ∀ column ∈ table.columns,
    (record.value column.name).Suits column.storage

/-- No integer that is stored is too long to be written. -/
def Writable (table : Sql.Table) (records : List SeedRecord) : Prop :=
  ∀ record ∈ records, ∀ column ∈ usedColumns table records, (record.value column.name).IsWritable

instance (table : Sql.Table) (records : List SeedRecord) : Decidable (Fits table records) :=
  decidable_of_iff (_ ∧ _ ∧ _) ⟨fun ⟨known, given, suits⟩ => ⟨known, given, suits⟩,
    fun ⟨known, given, suits⟩ => ⟨known, given, suits⟩⟩

instance (table : Sql.Table) (records : List SeedRecord) : Decidable (Writable table records) :=
  inferInstanceAs (Decidable (∀ record ∈ records, _))

/-- Whether a record leaves its key to the database though some record gives one. -/
def leavesKey (records : List SeedRecord) (record : SeedRecord) : Bool :=
  isUsed records primaryKey && record.value primaryKey == .null

/-- The records as they are given. -/
def seedDocument (records : List SeedRecord) : Value := .list (records.map SeedRecord.toValue)

/-! ### Keys of records -/

namespace SeedRecord

/-- The values of the record as they are given, under its keys. -/
def keyed (record : SeedRecord) : KeyedRecord := record.map fun entry => (entry.1, entry.2.toValue)

theorem toValue_keyed (record : SeedRecord) : record.keyed.toValue = record.toValue := by
  rw [KeyedRecord.toValue, keyed, List.map_map]
  rfl

theorem value_keyed (record : SeedRecord) (name : String) :
    record.keyed.value name = (record.value name).toValue := by
  rw [KeyedRecord.value, SeedRecord.value, keyed]
  induction record with
  | nil => rfl
  | cons entry rest ih =>
      rw [List.map_cons, List.lookup_cons, List.lookup_cons]
      cases name == entry.1 with
      | true => rfl
      | false => exact ih

end SeedRecord

theorem isUsed_iff {records : List SeedRecord} {name : String} :
    isUsed records name = true ↔ name ∈ recordKeys (records.map SeedRecord.keyed) := by
  simp [isUsed, recordKeys, KeyedRecord.names, SeedRecord.keyed, List.mem_flatMap]

theorem columnsAmong_keyed (table : Sql.Table) (records : List SeedRecord) :
    columnsAmong table (recordKeys (records.map SeedRecord.keyed)) = usedColumns table records := by
  rw [columnsAmong, usedColumns]
  refine List.filter_congr fun column _ => ?_
  rw [Bool.eq_iff_iff, isUsed_iff, List.contains_iff_mem]

theorem seedDocument_eq (records : List SeedRecord) :
    seedDocument records = .list ((records.map SeedRecord.keyed).map KeyedRecord.toValue) := by
  rw [seedDocument, List.map_map]
  simp only [Function.comp_def, SeedRecord.toValue_keyed]

/-! ### Cells -/

/-- The cell of a value in a column that it suits. -/
def SeedValue.cell : SeedValue → Option Value
  | .null => none
  | .text s => some (.text s)
  | .integer i => some (.int i)
  | .flag b => some (.bool b)

theorem cellValue_of_suits {storage : Storage} {v : SeedValue} (h : v.Suits storage) :
    cellValue storage v.toValue = .ok v.cell := by
  cases v with
  | null => rfl
  | text s => rfl
  | integer i =>
      obtain rfl : storage = .integer := h
      rfl
  | flag b =>
      obtain rfl : storage = .integer := h
      rfl

theorem one_lt_tenTo {n : Nat} (h : n ≠ 0) : 1 < tenTo n := Nat.one_lt_pow h (by decide)

theorem hasIntegerText_flag (b : Bool) : hasIntegerText (if b then 1 else 0) = true := by
  have hbound : 1 < integerTextBound := one_lt_tenTo (by decide)
  rw [hasIntegerText, decide_eq_true_eq]
  cases b
  · exact Nat.lt_of_succ_lt hbound
  · exact hbound

theorem cellText_of_integer {v : Value} {i : Int} (hread : Sql.integerOf? v = some i)
    {text : String} (hshown : v.isShowable = hasIntegerText i) :
    cellText .integer (some v) = .ok text ↔ hasIntegerText i = true ∧ integerText i = text := by
  rw [cellText, Sql.literal?, hread, Option.bind_some]
  by_cases hwritable : hasIntegerText i = true
  · simp [hwritable]
  · simp [hshown, hwritable]

/-- A cell is written as the literal of its value, unless that is an integer that is too long. -/
theorem cellText_eq_ok {storage : Storage} {v : SeedValue} (h : v.Suits storage) {text : String} :
    cellText storage v.cell = .ok text ↔ v.IsWritable ∧ v.literal.written = text := by
  cases v with
  | null => simp [cellText, SeedValue.cell, SeedValue.IsWritable, SeedValue.literal, Sql.Literal.written]
  | text s =>
      obtain rfl : storage = .text := h
      simp [cellText, Sql.literal?, SeedValue.cell, SeedValue.IsWritable, SeedValue.literal,
        Sql.Literal.written]
  | integer i =>
      obtain rfl : storage = .integer := h
      exact cellText_of_integer rfl rfl
  | flag b =>
      obtain rfl : storage = .integer := h
      have hwritable := hasIntegerText_flag b
      rw [SeedValue.cell, cellText, Sql.literal?]
      simp [Sql.integerOf?, hwritable, SeedValue.IsWritable, SeedValue.literal, Sql.Literal.written]

/-! ### Rows -/

/-- The row of a record. -/
def SeedRecord.row (columns : List Sql.Column) (record : SeedRecord) : Row :=
  columns.map fun column => (column, (record.value column.name).literal.written)

theorem literalOf_eq_ok {storage : Storage} {v : SeedValue} (h : v.Suits storage) {text : String} :
    literalOf storage v.toValue = .ok text ↔ v.IsWritable ∧ v.literal.written = text := by
  rw [literalOf, cellValue_of_suits h]
  exact cellText_eq_ok h

/-- Records that fit a table make a row each, unless some integer is too long to be written. -/
theorem Fits.seedRows_eq_ok {table : Sql.Table} {records : List SeedRecord} (hfits : Fits table records)
    (hcolumns : table.columnNames.Nodup) {resource : String} {rows : List Row} :
    seedRows resource table (seedDocument records) = .ok rows ↔
      Writable table records ∧ rows = records.map (SeedRecord.row (usedColumns table records)) := by
  have hknown : ∀ name ∈ recordKeys (records.map SeedRecord.keyed), name ∈ table.columnNames := by
    intro name hname
    obtain ⟨record, hrecord, hentry⟩ := List.any_eq_true.mp (isUsed_iff.mpr hname)
    obtain ⟨entry, hmem, heq⟩ := List.any_eq_true.mp hentry
    exact beq_iff_eq.mp heq ▸ hfits.known record hrecord entry hmem
  have hcells : ∀ record ∈ records, ∀ row,
      (usedColumns table records).mapM record.keyed.cell = .ok row ↔
        (∀ column ∈ usedColumns table records, (record.value column.name).IsWritable) ∧
          row = record.row (usedColumns table records) := by
    intro record hrecord row
    apply Outcome.mapM_eq_ok_iff
    intro column hcolumn cell
    have hsuits := hfits.suits record hrecord column (List.mem_of_mem_filter hcolumn)
    rw [KeyedRecord.cell, SeedRecord.value_keyed, Outcome.map_eq_ok]
    simp only [literalOf_eq_ok hsuits]
    constructor
    · rintro ⟨text, ⟨hwritable, rfl⟩, rfl⟩
      exact ⟨hwritable, rfl⟩
    · rintro ⟨hwritable, rfl⟩
      exact ⟨_, ⟨hwritable, rfl⟩, rfl⟩
  rw [seedDocument_eq, Migration.seedRows_eq_ok hcolumns, and_iff_right hknown, columnsAmong_keyed,
    List.mapM_map]
  exact Outcome.mapM_eq_ok_iff hcells

end ApiScaffold.Migration
