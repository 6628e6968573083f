import Mathlib
import ApiScaffold.Proofs.Sql.TableScript

/-! The columns of a script that creates a table. In its list the columns come first, and the constraints
behind them begin with words that no column begins with, so the columns are read back, all of them and no
more. -/

namespace ApiScaffold.Sql

/-- The words that constraints of a table begin with. -/
def constraintWords : List Token :=
  [.word "CONSTRAINT", .word "PRIMARY", .word "UNIQUE", .word "CHECK", .word "FOREIGN"]

/-- Whether an item of a table is a constraint. -/
def isConstraint (item : List Token) : Bool := item.head?.any constraintWords.contains

/-- The names of the columns in front of the constraints. -/
def scriptColumns (script : String) : List String :=
  ((listItems (Skimming.read script)).takeWhile fun item => !isConstraint item).filterMap fun item =>
    item.head?.bind Token.name?

/-- Names are quoted if they are words of constraints. -/
theorem nameToken_not_mem_constraintWords (name : String) : nameToken name ∉ constraintWords := by
  have hquoted : ∀ word : String, .word word ∈ constraintWords → needsQuotes word = true := by
    simp only [constraintWords, List.mem_cons, Token.word.injEq, List.not_mem_nil, or_false]
    rintro word (rfl | rfl | rfl | rfl | rfl) <;> decide
  rw [nameToken]
  split
  · simp [constraintWords]
  · rename_i hbare
    exact fun hmem => hbare (hquoted name hmem)

theorem Column.head?_tokens (column : Column) : column.tokens.head? = some (nameToken column.name) := by
  rw [tokens, List.append_assoc, List.cons_append, List.head?_cons]

theorem Column.isConstraint_tokens (column : Column) : isConstraint column.tokens = false := by
  rw [isConstraint, column.head?_tokens, Option.any_some, ← Bool.not_eq_true, List.contains_iff_mem]
  exact nameToken_not_mem_constraintWords column.name

/-- **Columns are read back.** A script has the columns of its table, by name and in order. -/
theorem Table.IsSimple.scriptColumns {table : Table} {script : String} (h : table.IsSimple)
    (hscript : table.IsScript script) : Sql.scriptColumns script = table.columnNames := by
  obtain ⟨key, others, hitems⟩ := h.listItems hscript
  have hcolumns : ∀ item ∈ table.columns.map Column.tokens, (!isConstraint item) = true := by
    intro item hitem
    obtain ⟨column, -, rfl⟩ := List.mem_map.mp hitem
    rw [column.isConstraint_tokens, Bool.not_false]
  have hkey : (!isConstraint (.word "PRIMARY" :: key)) = false := by
    simp [isConstraint, constraintWords]
  have hnames : ((fun item : List Token => item.head?.bind Token.name?) ∘ Column.tokens) =
      fun column => some column.name := by
    funext column
    rw [Function.comp_apply, column.head?_tokens, Option.bind_some, name?_nameToken]
  rw [Sql.scriptColumns, hitems, List.takeWhile_append_of_pos hcolumns, List.takeWhile_cons_of_neg (by simp [hkey]),
    List.append_nil, List.filterMap_map, hnames, columnNames]
  exact congrFun List.filterMap_eq_map' table.columns

example : scriptColumns "CREATE TABLE t (id TEXT NOT NULL, \"unique\" TEXT DEFAULT 'a, (b', PRIMARY KEY (id));" =
    ["id", "unique"] := by
  decide +kernel

end ApiScaffold.Sql
