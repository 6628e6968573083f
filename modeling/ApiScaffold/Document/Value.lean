import ApiScaffold.Calendar
import ApiScaffold.Number.Basic

/-!
Documents as data: what a configuration text denotes before any shape is asked of it. Mappings
keep the order of their keys.
-/

namespace ApiScaffold

/-- A value of a document. Text with unpaired surrogates is kept apart as code points, and a collection
that contains itself is cut off somewhere. -/
inductive Value where
  | null
  | bool (b : Bool)
  | number (n : Number)
  | text (s : String)
  | brokenText (codes : List Nat)
  | bytes (content : List UInt8)
  | date (d : Date)
  | moment (m : Moment)
  | list (items : List Value)
  | tuple (items : List Value)
  | set (items : List Value)
  | mapping (entries : List (Value × Value))
  | unending
  deriving Inhabited

namespace Value

def int (i : Int) : Value := .number (.int i)

def real (x : Binary64) : Value := .number (.real x)

/-- The number a value counts as when keys are compared: booleans are zero and one. -/
def asNumber? : Value → Option Number
  | .bool b => some (.int (if b then 1 else 0))
  | .number n => some n
  | _ => none

mutual

/-- Whether two values are the same key of a mapping. No not-a-number is the same key as another. -/
def sameKey (x y : Value) : Bool :=
  match x.asNumber?, y.asNumber? with
  | some m, some n => m.equal n
  | _, _ =>
    match x, y with
    | .null, .null => true
    | .text s, .text t => s == t
    | .brokenText s, .brokenText t => s == t
    | .bytes s, .bytes t => s == t
    | .date d, .date e => d == e
    | .moment m, .moment n => m.same n
    | .tuple xs, .tuple ys => sameKeys xs ys
    | _, _ => false

def sameKeys : List Value → List Value → Bool
  | [], [] => true
  | x :: xs, y :: ys => sameKey x y && sameKeys xs ys
  | _, _ => false

end

/-- Whether a value can be a key: collections that can change cannot. -/
def isHashable : Value → Bool
  | .list _ | .set _ | .mapping _ | .unending => false
  | _ => true

def hasKey (keys : List Value) (key : Value) : Bool := keys.any (sameKey key)

/-- Puts a pair into ordered entries: a key that is there keeps its place and gets the value. -/
def insertEntry (entries : List (Value × Value)) (key value : Value) : List (Value × Value) :=
  if entries.any fun e => sameKey e.1 key then
    entries.map fun e => if sameKey e.1 key then (e.1, value) else e
  else entries ++ [(key, value)]

/-- Adds a member to ordered members without repeats. -/
def insertMember (members : List Value) (value : Value) : List Value :=
  if hasKey members value then members else members ++ [value]

def entry? (entries : List (Value × Value)) (key : Value) : Option Value :=
  (entries.find? fun e => sameKey e.1 key).map (·.2)

def entryNamed? (entries : List (Value × Value)) (name : String) : Option Value :=
  entry? entries (.text name)

def kindName : Value → String
  | .null => "NoneType"
  | .bool _ => "bool"
  | .number (.int _) => "int"
  | .number (.real _) => "float"
  | .text _ | .brokenText _ => "str"
  | .bytes _ => "bytes"
  | .date _ => "date"
  | .moment _ => "datetime"
  | .list _ | .unending => "list"
  | .tuple _ => "tuple"
  | .set _ => "set"
  | .mapping _ => "dict"

/-- The word for the kind of a value, with its module if it has one. -/
def qualifiedKindName : Value → String
  | .date _ => "datetime.date"
  | .moment _ => "datetime.datetime"
  | v => v.kindName

/-- Empty collections and texts, null, false and zero count as nothing. -/
def isNothing : Value → Bool
  | .null => true
  | .bool b => !b
  | .number n => n.equal (.int 0)
  | .text s => s.isEmpty
  | .brokenText codes => codes.isEmpty
  | .bytes content => content.isEmpty
  | .date _ | .moment _ | .unending => false
  | .list items | .tuple items | .set items => items.isEmpty
  | .mapping entries => entries.isEmpty

end Value

end ApiScaffold
