import ApiScaffold.Yaml.Timestamp

/-!
Tags of nodes, and the tags that plain scalars imply by their text.
-/

namespace ApiScaffold.Yaml

/-- A tag: one of the common ones, or another by its address. -/
inductive Tag where
  | null
  | bool
  | int
  | float
  | binary
  | timestamp
  | orderedMap
  | pairs
  | set
  | str
  | seq
  | map
  | merge
  | value
  | other (uri : String)
  deriving DecidableEq, Repr

namespace Tag

def common : String := "tag:yaml.org,2002:"

def names : List (String × Tag) := [
  ("null", .null), ("bool", .bool), ("int", .int), ("float", .float), ("binary", .binary),
  ("timestamp", .timestamp), ("omap", .orderedMap), ("pairs", .pairs), ("set", .set), ("str", .str),
  ("seq", .seq), ("map", .map), ("merge", .merge), ("value", .value)]

def ofUri (uri : String) : Tag :=
  match names.find? fun (name, _) => common ++ name = uri with
  | some (_, tag) => tag
  | none => .other uri

def uri : Tag → String
  | .other uri => uri
  | tag =>
    match names.find? (·.2 = tag) with
    | some (name, _) => common ++ name
    | none => ""

end Tag

def booleanWords : List String :=
  ["yes", "Yes", "YES", "no", "No", "NO", "true", "True", "TRUE", "false", "False", "FALSE", "on",
    "On", "ON", "off", "Off", "OFF"]

def nullWords : List String := ["", "~", "null", "Null", "NULL"]

/-- Whether a list is nonempty and in a class. -/
def someOf (p : Char → Bool) (s : List Char) : Bool := !s.isEmpty && s.all p

def isDigitOrUnderscore (c : Char) : Bool := c.isDigit || c = '_'

def dropSign (s : List Char) : List Char := (Number.splitSign s).2

/-- Parts of a number in base 60 after the first one: at most 59, with or without leading zero. -/
def isSixtieth : List Char → Bool
  | [a] => a.isDigit
  | [a, b] => '0' ≤ a && a ≤ '5' && b.isDigit
  | _ => false

def splitAt (c : Char) (s : List Char) : List (List Char) :=
  s.foldr (fun d parts =>
    if d = c then [] :: parts
    else
      match parts with
      | part :: rest => (d :: part) :: rest
      | [] => [[d]]) [[]]

def isPlainInteger : List Char → Bool
  | c :: rest => '1' ≤ c && c ≤ '9' && rest.all isDigitOrUnderscore
  | [] => false

/-- Whether a text is written as an integer. -/
def looksInteger (s : List Char) : Bool :=
  match dropSign s with
  | ['0'] => true
  | '0' :: 'b' :: rest => someOf (fun c => c = '0' || c = '1' || c = '_') rest
  | '0' :: 'x' :: rest => someOf (fun c => (Text.hexValue? c).isSome || c = '_') rest
  | '0' :: rest => someOf (fun c => ('0' ≤ c && c ≤ '7') || c = '_') rest
  | body =>
    match splitAt ':' body with
    | [] => false
    | first :: others => isPlainInteger first && others.all isSixtieth

/-- Whether a text is an exponent: empty, or a letter, a sign and digits. -/
def looksExponent : List Char → Bool
  | [] => true
  | e :: s :: rest => (e = 'e' || e = 'E') && (s = '+' || s = '-') && someOf Char.isDigit rest
  | _ => false

def isWholePart : List Char → Bool
  | c :: rest => c.isDigit && rest.all isDigitOrUnderscore
  | [] => false

/-- Whether a text is written as a double. -/
def looksDouble (s : List Char) : Bool :=
  let body := dropSign s
  let signed := s.length != body.length
  let whole := body.takeWhile (· != '.')
  match body.dropWhile (· != '.') with
  | [] => false
  | _ :: rest =>
    let fraction := rest.takeWhile isDigitOrUnderscore
    let behind := rest.dropWhile isDigitOrUnderscore
    if whole.isEmpty then
      let word := String.ofList rest
      ["inf", "Inf", "INF"].contains word
        || (!signed && ["nan", "NaN", "NAN"].contains word)
        || (!signed && isWholePart fraction && looksExponent behind)
    else
      match splitAt ':' whole with
      | [first] => isWholePart first && looksExponent behind
      | first :: others => isWholePart first && others.all isSixtieth && behind.isEmpty
      | [] => false

/-- Whether a text is written as a timestamp; a date alone has all its digits. -/
def looksTimestamp (s : List Char) : Bool :=
  match readTimestamp? s with
  | some fields => fields.fullWidth || fields.time.isSome
  | none => false

/-- The signs that other nodes begin with. Only a scalar that is not plain can consist of one, and its
tag has no values. -/
def nodeSigns : List String := ["!", "&", "*"]

/-- The tag the text of a plain scalar implies. A line feed at the end does not count. -/
def impliedTag (s : List Char) : Tag :=
  let body := if 1 < s.length && s.getLast? = some '\n' then s.dropLast else s
  let word := String.ofList body
  if booleanWords.contains word then .bool
  else if looksDouble body then .float
  else if looksInteger body then .int
  else if word = "<<" then .merge
  else if nullWords.contains word then .null
  else if looksTimestamp body then .timestamp
  else if word = "=" then .value
  else if nodeSigns.contains word then .other (Tag.common ++ "yaml")
  else .str

end ApiScaffold.Yaml
