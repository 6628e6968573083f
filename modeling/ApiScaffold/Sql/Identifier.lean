import ApiScaffold.Naming.Identifier
import ApiScaffold.Text.Case

/-!
Names in SQL. A name is quoted where it would not be read as itself: reserved words, names with other
than plain characters, and names with capitals.
-/

namespace ApiScaffold.Sql

def reservedWords : List String := [
  "add", "after", "all", "alter", "analyze", "and", "as", "asc", "attach", "autoincrement", "before",
  "begin", "between", "by", "cascade", "case", "cast", "check", "collate", "column", "commit",
  "conflict", "constraint", "create", "cross", "current_date", "current_time", "current_timestamp",
  "database", "default", "deferrable", "deferred", "delete", "desc", "detach", "distinct", "drop",
  "each", "else", "end", "escape", "except", "exclusive", "exists", "explain", "false", "fail", "for",
  "foreign", "from", "full", "glob", "group", "having", "if", "ignore", "immediate", "in", "index",
  "indexed", "initially", "inner", "insert", "instead", "intersect", "into", "is", "isnull", "join",
  "key", "left", "like", "limit", "match", "natural", "not", "notnull", "null", "of", "offset", "on",
  "or", "order", "outer", "plan", "pragma", "primary", "query", "raise", "references", "reindex",
  "rename", "replace", "restrict", "right", "rollback", "row", "select", "set", "table", "temp",
  "temporary", "then", "to", "transaction", "trigger", "true", "union", "unique", "update", "using",
  "vacuum", "values", "view", "virtual", "when", "where"]

/-- The characters that need no quotes: letters and digits of ASCII, the underscore, the dollar sign,
and two small letters whose capital is a letter of ASCII. -/
def isPlainChar (c : Char) : Bool :=
  c.isAlphanum || c == '_' || c == '$' || c == 'ı' || c == 'ſ'

/-- Whether a name has to be quoted. A line feed at its end is not looked at. -/
def needsQuotes (name : String) : Bool :=
  let chars := Naming.dropLineFeed name.toList
  chars.isEmpty || chars.head?.any (fun c => c.isDigit || c == '$') || !chars.all isPlainChar
    || reservedWords.contains (Text.lower name) || Text.lower name != name

/-- Writes every occurrence of a character twice. -/
def doubled (mark : Char) (s : List Char) : List Char :=
  s.flatMap fun c => if c = mark then [mark, mark] else [c]

/-- A text between marks, with the marks inside written twice. -/
def enclosed (mark : Char) (s : String) : String :=
  String.ofList (mark :: doubled mark s.toList ++ [mark])

def identifier (name : String) : String := if needsQuotes name then enclosed '"' name else name

/-- Names with commas between them, in parentheses. -/
def identifierList (names : List String) : String :=
  "(" ++ String.intercalate ", " (names.map identifier) ++ ")"

end ApiScaffold.Sql
