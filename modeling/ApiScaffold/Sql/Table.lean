import ApiScaffold.Config.Basic
import ApiScaffold.Schema.FieldMapping

/-!
Tables: the columns that a resource is stored in. A database holds tables of different names, and a
table columns of different names.
-/

namespace ApiScaffold.Sql

/-- What a column holds where nothing is given: an expression, or a text. -/
inductive ColumnDefault where
  | expression (source : String)
  | text (s : String)
  deriving DecidableEq, Repr

def ColumnDefault.source : ColumnDefault → String
  | .expression source => source
  | .text s => s

/-- A column of a table that another one refers to. -/
structure Reference where
  table : String
  column : String
  deriving DecidableEq, Repr

/-- A column. -/
structure Column where
  name : String
  storage : Storage
  nullable : Bool := true
  unique : Bool := false
  isKey : Bool := false
  default : Option ColumnDefault := none
  reference : Option Reference := none
  deriving DecidableEq, Repr

/-- A table. -/
structure Table where
  name : String
  columns : List Column
  deriving DecidableEq, Repr

namespace Table

def columnNames (table : Table) : List String := table.columns.map Column.name

def column? (table : Table) (name : String) : Option Column :=
  table.columns.find? fun column => column.name == name

end Table

/-- Why there is no table or no statement. -/
inductive Fault where
  | repeatedTable (table : String)
  | repeatedColumn (table column : String)
  | missingTable (table column : String) (target : Reference)
  | missingColumn (table : String) (target : Reference)
  | unknownColumn (name : String)
  | nameTooLong (name : String)
  | noLiteral (shown : String) (storage : Storage)
  deriving DecidableEq, Repr

/-- The most characters the name of an index may have. -/
def nameLimit : Nat := 9999

def Fault.message : Fault → String
  | repeatedTable table =>
    s!"Table '{table}' is already defined for this MetaData instance.  Specify 'extend_existing=True' to redefine options and columns on an existing Table object."
  | repeatedColumn table column =>
    s!"A column with name '{column}' is already present in table '{table}'."
  | missingTable table column target =>
    s!"Foreign key associated with column '{table}.{column}' could not find table '{target.table}' with which to generate a foreign key to target column '{target.column}'"
  | missingColumn table target =>
    s!"Could not initialize target column for ForeignKey '{target.table}.{target.column}' on table '{table}': table '{target.table}' has no column named '{target.column}'"
  | unknownColumn name => Text.quoted name
  | nameTooLong name => s!"Identifier '{name}' exceeds maximum length of {nameLimit} characters"
  | noLiteral shown storage =>
    s!"Could not render literal value \"{shown}\" with datatype {storage.name}; see parent stack trace for more detail."

def columnDefault : Scalar → Except LiteralFault ColumnDefault
  | .null => .ok (.expression "NULL")
  | .bool b => .ok (.expression (if b then "1" else "0"))
  | .number n => if n.hasText then .ok (.expression n.text) else .error .numberTooLong
  | .text s => .ok (.text s)

/-- The column that a relation refers to. -/
def referenceOf (target : RelationTarget) : Reference :=
  ⟨Naming.tableName target.resource, target.field⟩

/-- The first item that occurs again. -/
def firstRepeated? (seen : List String) : List String → Option String
  | [] => none
  | name :: rest => if seen.contains name then some name else firstRepeated? (name :: seen) rest

/-- Puts a table into a database, unless one of its name is there or two of its columns have one
name. -/
def define (tables : List Table) (table : Table) : Except Fault (List Table) :=
  if tables.any fun other => other.name == table.name then .error (.repeatedTable table.name)
  else
    match firstRepeated? [] table.columnNames with
    | some name => .error (.repeatedColumn table.name name)
    | none => .ok (tables ++ [table])

end ApiScaffold.Sql
