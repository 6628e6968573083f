import ApiScaffold.Migration.Table
import ApiScaffold.Sql.Literal

/-!
Seed data: records as rows of one insertion. The columns are all keys that any record has; where a
record lacks one, its row has NULL.
-/

namespace ApiScaffold.Migration

/-! ### Keys -/

/-- What walking over a value gives. -/
def elements : Value → Except RecordFault (List Value)
  | .text s => .ok (s.toList.map fun c => .text (String.singleton c))
  | .brokenText codes => .ok (codes.map fun code => .brokenText [code])
  | .bytes content => .ok (content.map fun b => .int b.toNat)
  | .list items | .tuple items | .set items => .ok items
  | .mapping entries => .ok (entries.map (·.1))
  | v => .error (.notIterable v.qualifiedKindName)

mutual

/-- The kind of the first part of a value that cannot be a key. -/
def unhashableKind? : Value → Option String
  | .list _ => some "list"
  | .set _ => some "set"
  | .mapping _ => some "dict"
  | .tuple items => firstUnhashable? items
  | _ => none

/-- The kind of the first item that cannot be a key. -/
def firstUnhashable? : List Value → Option String
  | [] => none
  | item :: rest => (unhashableKind? item).or (firstUnhashable? rest)

end

def position? (table : Sql.Table) (v : Value) : Option Nat :=
  (List.range table.columns.length).find? fun i => Value.sameKey v (.int (i : Nat))

/-- Whether a key is the name of no column. Keys that are no texts are refused unless they are the
position of a column. -/
def isUnknown (table : Sql.Table) (key : Value) : Except RecordFault Bool :=
  match key with
  | .text name => .ok !table.columnNames.contains name
  | .brokenText _ => .ok true
  | v =>
    match unhashableKind? v with
    | some kind => .error (.unhashableKey kind)
    | none => if (position? table v).isSome then .ok false else .error .keyNotText

def unknownKeys (table : Sql.Table) (record : Value) : Except RecordFault (List Value) := do
  let keys ← elements record
  let judged ← keys.mapM fun key => (isUnknown table key).map (key, ·)
  return (judged.filter (·.2)).map (·.1)

/-- Values without repeats. -/
def distinct (values : List Value) : List Value := values.foldl Value.insertMember []

/-- The keys of all records in the order in which they first occur. -/
def seedKeys (records : List Value) : Except RecordFault (List Value) := do
  let keys ← records.mapM elements
  return distinct keys.flatten

/-! ### Rows -/

/-- What a value becomes in a column: nothing, or a value that has a literal or none. Collections are
written as JSON, dates and moments as ISO text, and columns of text hold everything as text. -/
def cellValue (storage : Storage) (v : Value) : Except RecordFault (Option Value) :=
  match v with
  | .null => .ok none
  | .mapping _ | .list _ => (v.toJson.mapError .json).map fun j => some (.text j.compact)
  | .date d => .ok (some (.text d.iso))
  | .moment m => .ok (some (.text m.iso))
  | .text _ => .ok (some v)
  | v =>
    if storage = .text then
      if v.isShowable then .ok (some (.text v.display)) else .error .numberTooLong
    else .ok (some v)

/-- The column that a key stands for. -/
def keyStorage (table : Sql.Table) (key : Value) : Storage :=
  match key with
  | .text name => ((table.column? name).map Sql.Column.storage).getD .text
  | v => (((position? table v).bind (table.columns[·]?)).map Sql.Column.storage).getD .text

def lookUp (record key : Value) : Except RecordFault Value :=
  match record with
  | .mapping entries => .ok ((Value.entry? entries key).getD .null)
  | v => .error (.noLookup v.qualifiedKindName)

def rowValues (table : Sql.Table) (keys : List Value) (record : Value) :
    Except RecordFault (List (Value × Option Value)) :=
  keys.mapM fun key => do
    let v ← lookUp record key
    let cell ← cellValue (keyStorage table key) v
    return (key, cell)

def keyName (key : Value) : Except RecordFault String :=
  match key with
  | .text name => .ok name
  | v => .error (.keyNotColumn v.inspect)

def cellText (storage : Storage) : Option Value → Except GenerationFault String
  | none => .ok "NULL"
  | some v =>
    match Sql.literal? storage v with
    | some text => .ok text
    | none =>
      if v.isShowable then .error (.sql (.noLiteral (Sql.shortened v.inspect) storage))
      else .error (.record .numberTooLong)

/-- A row of an insertion: the columns that are given, in the order of the table, and their texts. -/
abbrev Row := List (Sql.Column × String)

def rowOf (table : Sql.Table) (values : List (String × Option Value)) :
    Except GenerationFault Row := do
  let cells ← table.columns.mapM fun column =>
    match values.lookup column.name with
    | none => return none
    | some cell => do
      let text ← cellText column.storage cell
      return some (column, text)
  return cells.filterMap id

def recordRow (table : Sql.Table) (keys : List Value) (record : Value) :
    Except GenerationFault Row := do
  let values ← (rowValues table keys record).mapError .record
  let named ← (values.mapM fun entry => (keyName entry.1).map (·, entry.2)).mapError .record
  rowOf table named

def lacksKey (row : Row) : Bool := row.any fun cell => cell.1.isKey && cell.2 == "NULL"

def rowText (row : Row) : String :=
  "(" ++ String.intercalate ", " (row.map (·.2)) ++ ")"
    ++ (if lacksKey row then " RETURNING " ++ Sql.identifier primaryKey else "")

def insertion (table : Sql.Table) (row : Row) : String :=
  if row.isEmpty then s!"INSERT INTO {Sql.identifier table.name} DEFAULT VALUES"
  else
    let columns := Sql.identifierList (row.map fun cell => cell.1.name)
    s!"INSERT INTO {Sql.identifier table.name} {columns} VALUES {rowText row}"

/-- Splits a text at the first occurrence of a word; without one, all of it comes before. -/
def splitAtWord (word : List Char) : List Char → List Char × List Char
  | [] => ([], [])
  | c :: rest =>
    if word.isPrefixOf (c :: rest) then ([], (c :: rest).drop word.length)
    else
      let (before, after) := splitAtWord word rest
      (c :: before, after)

/-- The head of an insertion and its row. -/
def insertionParts (text : String) : String × String :=
  let (head, row) := splitAtWord " VALUES ".toList text.toList
  (String.ofList head, String.ofList row)

def seedScript (table : Sql.Table) (rows : List Row) : String :=
  let parts := rows.map fun row => insertionParts (insertion table row)
  let head := (parts.getLast?.map (·.1)).getD ""
  s!"-- Seed {table.name}\n{head}\nVALUES\n  " ++ String.intercalate ",\n  " (parts.map (·.2)) ++ ";\n"

def seedRows (resource : String) (table : Sql.Table) (records : Value) :
    Except GenerationFault (List Row) := do
  let records ← (elements records).mapError .record
  let unknown ← (records.mapM (unknownKeys table)).mapError .record
  if !unknown.flatten.isEmpty then
    throw (.unknownColumns resource ((distinct unknown.flatten).map Value.display))
  let keys ← (seedKeys records).mapError .record
  records.mapM (recordRow table keys)

end ApiScaffold.Migration
