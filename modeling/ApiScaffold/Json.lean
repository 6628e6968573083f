import ApiScaffold.Document.Value
import ApiScaffold.Text.DoubleQuoted
import ApiScaffold.Text.Surrogate

/-!
JSON documents with ordered members, and their two written forms: on one line, and indented by two
spaces. Both are pure ASCII, so text with unpaired surrogates can be written too.
-/

namespace ApiScaffold

/-- A JSON document. -/
inductive Json where
  | null
  | bool (b : Bool)
  | number (n : Number)
  | text (s : String)
  | brokenText (codes : List Nat)
  | array (items : List Json)
  | object (members : List (String × Json))
  deriving Inhabited

namespace Json

/-- An integer. -/
def int (i : Int) : Json := .number (.int i)

def texts (items : List String) : Json := .array (items.map .text)

/-- The text of a number. Infinities and not-a-number have names outside the JSON grammar. -/
def numberText : Number → String
  | .real (.infinity negative) => if negative then "-Infinity" else "Infinity"
  | .real .notANumber => "NaN"
  | n => n.text

def quotedText (s : String) : String := Text.doubleQuoted .ascii s

/-- A quoted text with unpaired surrogates. -/
def quotedCodes (codes : List Nat) : String := Text.doubleQuotedCodes .ascii codes

mutual

/-- The form on one line. -/
def compact : Json → String
  | .null => "null"
  | .bool b => if b then "true" else "false"
  | .number n => numberText n
  | .text s => quotedText s
  | .brokenText codes => quotedCodes codes
  | .array items => "[" ++ String.intercalate ", " (compactItems items) ++ "]"
  | .object members => "\x7b" ++ String.intercalate ", " (compactMembers members) ++ "\x7d"

/-- The items of an array on one line. -/
def compactItems : List Json → List String
  | [] => []
  | item :: rest => compact item :: compactItems rest

/-- The members of an object on one line. -/
def compactMembers : List (String × Json) → List String
  | [] => []
  | (name, content) :: rest => (quotedText name ++ ": " ++ compact content) :: compactMembers rest

end

/-- Puts parts on lines of their own between brackets, one step deeper than the given margin. -/
def bracketed (opening closing margin : String) (parts : List String) : String :=
  if parts.isEmpty then opening ++ closing
  else
    opening ++ "\n" ++ String.intercalate ",\n" (parts.map fun p => margin ++ "  " ++ p) ++ "\n"
      ++ margin ++ closing

mutual

def indentedAt (margin : String) : Json → String
  | .array items => bracketed "[" "]" margin (indentedItems (margin ++ "  ") items)
  | .object members => bracketed "\x7b" "\x7d" margin (indentedMembers (margin ++ "  ") members)
  | .null => "null"
  | .bool b => if b then "true" else "false"
  | .number n => numberText n
  | .text s => quotedText s
  | .brokenText codes => quotedCodes codes

def indentedItems (margin : String) : List Json → List String
  | [] => []
  | item :: rest => indentedAt margin item :: indentedItems margin rest

def indentedMembers (margin : String) : List (String × Json) → List String
  | [] => []
  | (name, content) :: rest =>
    (quotedText name ++ ": " ++ indentedAt margin content) :: indentedMembers margin rest

end

def indented (j : Json) : String := indentedAt "" j

mutual

/-- The numbers that occur in a document, in the order they are written. -/
def numbers : Json → List Number
  | .number n => [n]
  | .array items => itemNumbers items
  | .object members => memberNumbers members
  | _ => []

def itemNumbers : List Json → List Number
  | [] => []
  | item :: rest => numbers item ++ itemNumbers rest

def memberNumbers : List (String × Json) → List Number
  | [] => []
  | (_, content) :: rest => numbers content ++ memberNumbers rest

end

/-- Whether every number is short enough to be written. -/
def hasText (j : Json) : Bool := j.numbers.all Number.hasText

end Json

/-- Why a value has no JSON form. -/
inductive JsonFault where
  | unsupported (kind : String)
  | badKey (kind : String)
  | numberTooLong
  | circular
  deriving DecidableEq, Repr

def JsonFault.message : JsonFault → String
  | unsupported kind => s!"Object of type {kind} is not JSON serializable"
  | badKey kind => s!"keys must be str, int, float, bool or None, not {kind}"
  | numberTooLong => Number.tooLongMessage
  | circular => "Circular reference detected"

namespace Value

def memberName : Value → Except JsonFault String
  | .text s => .ok s
  | .null => .ok "null"
  | .bool b => .ok (if b then "true" else "false")
  | .number n => if n.hasText then .ok (Json.numberText n) else .error .numberTooLong
  | .brokenText codes => .ok (Text.withStandIns codes)
  | v => .error (.badKey v.qualifiedKindName)

mutual

/-- The JSON form of a value; the first value without one is reported. -/
def toJson : Value → Except JsonFault Json
  | .null => .ok .null
  | .bool b => .ok (.bool b)
  | .number n => if n.hasText then .ok (.number n) else .error .numberTooLong
  | .text s => .ok (.text s)
  | .brokenText codes => .ok (.brokenText codes)
  | .list items => (itemsToJson items).map .array
  | .tuple items => (itemsToJson items).map .array
  | .mapping entries => (entriesToJson entries).map .object
  | .unending => .error .circular
  | v => .error (.unsupported v.kindName)

def itemsToJson : List Value → Except JsonFault (List Json)
  | [] => .ok []
  | item :: rest => do
    let first ← toJson item
    let others ← itemsToJson rest
    return first :: others

def entriesToJson : List (Value × Value) → Except JsonFault (List (String × Json))
  | [] => .ok []
  | (key, value) :: rest => do
    let name ← memberName key
    let content ← toJson value
    let others ← entriesToJson rest
    return (name, content) :: others

end

end Value

end ApiScaffold
