/-!
Identifiers of generated code, and the words that are taken in code and in queries.
-/

namespace ApiScaffold.Naming

/-- The words that the language of generated code reserves. -/
def keywords : List String := [
  "False", "None", "True", "and", "as", "assert", "async", "await", "break", "class", "continue",
  "def", "del", "elif", "else", "except", "finally", "for", "from", "global", "if", "import", "in",
  "is", "lambda", "nonlocal", "not", "or", "pass", "raise", "return", "try", "while", "with", "yield"]

/-- A letter of ASCII or an underscore. -/
def isNameStart (c : Char) : Bool := c.isAlpha || c == '_'

/-- A letter or digit of ASCII or an underscore. -/
def isNameChar (c : Char) : Bool := c.isAlphanum || c == '_'

def dropLineFeed (s : List Char) : List Char :=
  if s.getLast? = some '\n' then s.dropLast else s

/-- Whether a text is formed like a name; a line feed at its end is not looked at. -/
def isNameLike (name : String) : Bool :=
  match dropLineFeed name.toList with
  | [] => false
  | c :: rest => isNameStart c && rest.all isNameChar

/-- Whether a text can name a class, a module or an attribute. -/
def isIdentifier (name : String) : Bool := isNameLike name && !keywords.contains name

end ApiScaffold.Naming
