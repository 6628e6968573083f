import Mathlib
import ApiScaffold.Proofs.Outcome
import ApiScaffold.Sql.Definition

/-! The statement that creates a table. Other tables are looked up for references, so they decide whether
there is a statement; what it says, it says from the columns of the table alone. -/

namespace ApiScaffold.Sql

/-- The clause of a column that refers to another one. -/
def Column.referenceClause (column : Column) (target : Reference) : String :=
  "FOREIGN KEY" ++ identifierList [column.name] ++ " REFERENCES " ++ identifier target.table ++ " "
    ++ identifierList [target.column]

/-- The constraints that a column states. -/
def Column.clauses (column : Column) : List String :=
  (if column.unique then ["UNIQUE " ++ identifierList [column.name]] else [])
    ++ column.reference.toList.map column.referenceClause

/-- The statement that creates a table, made of its columns. -/
def Table.statement (table : Table) : String :=
  let parts := table.columns.map Column.definition ++ keyClause table ::
    (table.columns.map Column.clauses).flatten
  tidy ("CREATE TABLE IF NOT EXISTS " ++ identifier table.name ++ " (\n\t"
    ++ String.intercalate ", \n\t" parts ++ "\n)")

variable {tables : List Table} {table : Table}

/-- A reference that resolves is written as it is declared, wherever it leads. -/
theorem resolve_eq_ok {column : Column} {target : Reference} {clause : String}
    (h : resolve tables table column target = .ok clause) : clause = column.referenceClause target := by
  unfold resolve at h
  split at h
  · cases h
  · split at h
    · cases h
    · exact (Except.ok.inj h).symm

theorem columnConstraints_eq_ok {column : Column} {clauses : List String}
    (h : columnConstraints tables table column = .ok clauses) : clauses = column.clauses := by
  obtain ⟨references, hreferences, hpure⟩ := Outcome.bind_eq_ok.mp h
  have hclauses : references.map id = column.reference.toList.map column.referenceClause :=
    Outcome.mapM_map_eq hreferences fun _ _ _ hresolve => resolve_eq_ok hresolve
  rw [List.map_id] at hclauses
  rw [← Except.ok.inj hpure, Column.clauses, hclauses]

theorem createTable_eq_ok {ddl : String} (h : createTable tables table = .ok ddl) :
    ddl = table.statement := by
  obtain ⟨parts, hparts, hddl⟩ := Outcome.bind_eq_ok.mp h
  obtain ⟨constraints, hconstraints, hpure⟩ := Outcome.bind_eq_ok.mp hparts
  have hclauses : constraints.map id = table.columns.map Column.clauses :=
    Outcome.mapM_map_eq hconstraints fun _ _ _ hcolumn => columnConstraints_eq_ok hcolumn
  rw [List.map_id] at hclauses
  rw [← Except.ok.inj hddl, ← Except.ok.inj hpure, hclauses, Table.statement]

end ApiScaffold.Sql
