import ApiScaffold.Sql.Identifier
import ApiScaffold.Sql.Table
import ApiScaffold.Text.Blank
import ApiScaffold.Text.Lines

/-!
Statements that define and drop tables and indexes, and how their text is tidied.
-/

namespace ApiScaffold.Sql

/-- A text as a literal: in single quotes, those inside written twice. -/
def textLiteral (s : String) : String := enclosed '\'' s

/-- Whether an expression has to stand in parentheses as a default: some character of it belongs to no
word. -/
def needsParentheses (expression : String) : Bool := !expression.toList.all Naming.isNameChar

def ColumnDefault.written : ColumnDefault → String
  | .expression source => if needsParentheses source then s!"({source})" else source
  | .text s => textLiteral s

def Column.definition (column : Column) : String :=
  let default := (column.default.map fun d => " DEFAULT " ++ d.written).getD ""
  identifier column.name ++ " " ++ column.storage.name ++ default
    ++ (if column.nullable then "" else " NOT NULL")

/-- The reference of a column, if it leads to a column of a table. -/
def resolve (tables : List Table) (table : Table) (column : Column) (target : Reference) :
    Except Fault String :=
  match tables.find? fun other => other.name == target.table with
  | none => .error (.missingTable table.name column.name target)
  | some found =>
    match found.column? target.column with
    | none => .error (.missingColumn table.name target)
    | some _ =>
      .ok ("FOREIGN KEY" ++ identifierList [column.name] ++ " REFERENCES " ++ identifier target.table
        ++ " " ++ identifierList [target.column])

def columnConstraints (tables : List Table) (table : Table) (column : Column) :
    Except Fault (List String) := do
  let references ← column.reference.toList.mapM (resolve tables table column)
  return (if column.unique then ["UNIQUE " ++ identifierList [column.name]] else []) ++ references

def keyClause (table : Table) : String :=
  "PRIMARY KEY " ++ identifierList ((table.columns.filter Column.isKey).map Column.name)

/-- The parts of the definition of a table: columns, key and constraints. -/
def tableParts (tables : List Table) (table : Table) : Except Fault (List String) := do
  let constraints ← table.columns.mapM (columnConstraints tables table)
  return table.columns.map Column.definition ++ keyClause table :: constraints.flatten

/-- Tidies a statement: blanks at the ends of lines go, and tabs become two spaces. -/
def tidy (sql : String) : String :=
  let lines := Text.splitLines (Text.trimChars Text.isBlank sql.toList)
  let trimmed := lines.map (Text.trimEndChars Text.isBlank)
  let joined := (List.intersperse ['\n'] trimmed).flatten
  String.ofList (joined.flatMap fun c => if c = '\t' then [' ', ' '] else [c])

def createTable (tables : List Table) (table : Table) : Except Fault String := do
  let parts ← tableParts tables table
  return tidy ("CREATE TABLE IF NOT EXISTS " ++ identifier table.name ++ " (\n\t"
    ++ String.intercalate ", \n\t" parts ++ "\n)")

def dropTable (table : Table) : String := tidy ("DROP TABLE IF EXISTS " ++ identifier table.name)

/-- An index over columns of a table. -/
structure Index where
  name : String
  columns : List String
  unique : Bool
  deriving DecidableEq, Repr

def createIndex (table : Table) (index : Index) : Except Fault String :=
  match index.columns.find? fun name => (table.column? name).isNone with
  | some name => .error (.unknownColumn name)
  | none =>
    if nameLimit < index.name.length then .error (.nameTooLong index.name)
    else
      .ok (tidy ("CREATE " ++ (if index.unique then "UNIQUE " else "") ++ "INDEX IF NOT EXISTS "
        ++ identifier index.name ++ " ON " ++ identifier table.name ++ " "
        ++ identifierList index.columns))

end ApiScaffold.Sql
