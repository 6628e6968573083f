/-!
Words of a name in any casing, and the casings made from them. Only ASCII letters and digits belong
to words; every other character separates them.
-/

namespace ApiScaffold.Naming

/-- A capital of the ASCII alphabet. -/
def isUpper (c : Char) : Bool := c.isUpper

/-- A small letter of the ASCII alphabet. -/
def isLower (c : Char) : Bool := c.isLower

/-- A letter or digit of ASCII. -/
def isWordChar (c : Char) : Bool := c.isAlphanum

/-! ### Snake case -/

/-- Whether a separator belongs between two characters, given the one after them: a capital begins
a word after a small letter or digit, and after a capital if a small letter follows it. -/
def beginsWord (previous current : Char) (following : Option Char) : Bool :=
  isUpper current
    && (isLower previous || previous.isDigit
      || (isUpper previous && (following.map isLower).getD false))

def separateCasing (previous : Option Char) : List Char → List Char
  | [] => []
  | c :: rest =>
    let separated :=
      match previous with
      | some p => beginsWord p c rest.head?
      | none => false
    if separated then '_' :: c :: separateCasing (some c) rest
    else c :: separateCasing (some c) rest

/-- Turns runs of other characters into one underscore; none at the start. `pending` tells that a
run was passed behind a word. -/
def joinRuns (pending : Bool) : List Char → List Char
  | [] => []
  | c :: rest =>
    if isWordChar c then
      if pending then '_' :: c.toLower :: afterWord rest else c.toLower :: afterWord rest
    else joinRuns pending rest
where
  /-- Behind a character of a word the next run counts. -/
  afterWord : List Char → List Char
    | [] => []
    | c :: rest =>
      if isWordChar c then c.toLower :: afterWord rest else joinRuns true rest

/-- Small words joined by underscores. -/
def snakeCase (name : String) : String :=
  String.ofList (joinRuns false (separateCasing none name.toList))

/-! ### Words -/

/-- How many of the leading capitals make up a word: all of them before a digit or the end of a run
of word characters, all but the last before a small letter. -/
def capitalsInWord (capitals : List Char) (next : Option Char) : Nat :=
  if (next.map isLower).getD false then capitals.length - 1 else capitals.length

/-- How many characters the word at the start of a text has, if one starts there: a capital with
small letters, small letters, capitals, or digits. -/
def wordLength (s : List Char) : Nat :=
  match s with
  | [] => 0
  | c :: rest =>
    if isLower c then (s.takeWhile isLower).length
    else if isUpper c then
      let small := (rest.takeWhile isLower).length
      if small = 0 then
        let capitals := s.takeWhile isUpper
        capitalsInWord capitals (s.drop capitals.length).head?
      else small + 1
    else if c.isDigit then (s.takeWhile Char.isDigit).length
    else 0

/-- Splits a text into words, skipping what belongs to none. -/
def splitWords (s : List Char) : Nat → List (List Char)
  | 0 => []
  | fuel + 1 =>
    match s with
    | [] => []
    | _ :: rest =>
      let length := wordLength s
      if length = 0 then splitWords rest fuel
      else s.take length :: splitWords (s.drop length) fuel

/-- The words of a name, in small letters. -/
def words (name : String) : List String :=
  (splitWords name.toList name.toList.length).map fun w => String.ofList (w.map Char.toLower)

/-- A word with its first letter made a capital. -/
def capitalise (word : String) : String :=
  match word.toList with
  | [] => ""
  | c :: rest => String.ofList (c.toUpper :: rest.map Char.toLower)

/-- Capitalised words without separators. -/
def pascalCase (name : String) : String := String.join ((words name).map capitalise)

/-- Words joined by hyphens. -/
def kebabCase (name : String) : String := String.intercalate "-" (words name)

end ApiScaffold.Naming
