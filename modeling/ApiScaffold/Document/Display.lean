import ApiScaffold.Document.Value
import ApiScaffold.Text.Quoted
import ApiScaffold.Text.Surrogate

/-!
How values are shown in messages: an exact form in which texts are quoted, and a plain form that
differs for texts, dates and moments on their own.
-/

namespace ApiScaffold.Value

def commaJoined (items : List String) : String := String.intercalate ", " items

def quotedByte (quote : UInt8) (b : UInt8) : List Char :=
  if b == 0x5C || b == quote then ['\\', Char.ofNat b.toNat]
  else if b == 0x0A then ['\\', 'n']
  else if b == 0x0D then ['\\', 'r']
  else if b == 0x09 then ['\\', 't']
  else if 0x20 ≤ b && b < 0x7F then [Char.ofNat b.toNat]
  else '\\' :: 'x' :: Text.hexDigits 2 b.toNat

/-- A byte string in quotes, single unless it holds a single quote and no double one. -/
def quotedBytes (content : List UInt8) : String :=
  let quote : UInt8 := if content.contains 0x27 && !content.contains 0x22 then 0x22 else 0x27
  let mark := Char.ofNat quote.toNat
  String.ofList ('b' :: mark :: content.flatMap (quotedByte quote) ++ [mark])

/-- The exact form of an offset. -/
def inspectOffset (span : Int) : String :=
  if span = 0 then "datetime.timezone.utc" else s!"datetime.timezone({spanDisplay span})"

/-- The exact form of a moment; trailing zero seconds and microseconds are left out. -/
def inspectMoment (m : Moment) : String :=
  let fields :=
    [m.date.year, m.date.month, m.date.day, m.hour, m.minute]
      ++ (if m.second = 0 && m.microsecond = 0 then [] else [m.second])
      ++ (if m.microsecond = 0 then [] else [m.microsecond])
  let zone := (m.offset.map fun o => ", tzinfo=" ++ inspectOffset o).getD ""
  s!"datetime.datetime({commaJoined (fields.map Nat.repr)}{zone})"

mutual

/-- The exact form. -/
def inspect : Value → String
  | .null => "None"
  | .bool b => if b then "True" else "False"
  | .number n => n.text
  | .text s => Text.quoted s
  | .brokenText codes => Text.quotedCodes codes
  | .bytes content => quotedBytes content
  | .date d => s!"datetime.date({d.year}, {d.month}, {d.day})"
  | .moment m => inspectMoment m
  | .list items => "[" ++ commaJoined (inspectAll items) ++ "]"
  | .tuple [item] => "(" ++ inspect item ++ ",)"
  | .tuple items => "(" ++ commaJoined (inspectAll items) ++ ")"
  | .set [] => "set()"
  | .set items => "\x7b" ++ commaJoined (inspectAll items) ++ "\x7d"
  | .mapping entries => "\x7b" ++ commaJoined (inspectEntries entries) ++ "\x7d"
  | .unending => "[...]"

/-- The exact forms of items. -/
def inspectAll : List Value → List String
  | [] => []
  | item :: rest => inspect item :: inspectAll rest

/-- The exact forms of entries. -/
def inspectEntries : List (Value × Value) → List String
  | [] => []
  | (key, value) :: rest => (inspect key ++ ": " ++ inspect value) :: inspectEntries rest

end

/-- The plain form. -/
def display : Value → String
  | .text s => s
  | .brokenText codes => Text.withStandIns codes
  | .date d => d.iso
  | .moment m => m.isoWith " "
  | v => v.inspect

mutual

/-- Whether every integer in a value is short enough to be shown. -/
def isShowable : Value → Bool
  | .number n => n.hasText
  | .list items | .tuple items | .set items => allShowable items
  | .mapping entries => allEntriesShowable entries
  | _ => true

def allShowable : List Value → Bool
  | [] => true
  | item :: rest => isShowable item && allShowable rest

def allEntriesShowable : List (Value × Value) → Bool
  | [] => true
  | (key, value) :: rest => isShowable key && isShowable value && allEntriesShowable rest

end

end ApiScaffold.Value
