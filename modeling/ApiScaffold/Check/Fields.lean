import ApiScaffold.Check.Finding
import ApiScaffold.Imports
import ApiScaffold.Text.DecimalDigit

/-!
Checks of single fields: choices, bounds and defaults have to suit the type.
-/

namespace ApiScaffold.Check

def place (resource : ResourceSpec) (field : FieldSpec) : Place := ⟨resource.name, field.name⟩

def onFields (check : Place → FieldSpec → List Finding) (config : ApiConfig) : List Finding :=
  config.resources.flatMap fun resource =>
    resource.fields.flatMap fun field => check (place resource field) field

/-- Runs a check that may not be finished on every field of every resource. -/
def onFieldsWithFaults (check : Place → FieldSpec → Except Fault (List Finding))
    (config : ApiConfig) : Except Fault (List Finding) := do
  let found ← config.resources.mapM fun resource =>
    resource.fields.mapM fun field => check (place resource field) field
  return found.flatten.flatten

/-! ### Choices -/

/-- The items that occur more than once, sorted. -/
def repeatedItems (items : List String) : List String :=
  Imports.sortTexts (items.eraseDups.filter fun item => 1 < items.count item)

/-- Choices are needed where the type asks for them and of no use elsewhere. -/
def choicesOf (place : Place) (field : FieldSpec) : List Finding :=
  if field.type = .choice then
    if field.choiceList.isEmpty then [.choicesMissing place]
    else if (repeatedItems field.choiceList).isEmpty then []
    else [.choicesRepeated place (repeatedItems field.choiceList)]
  else if field.choiceList.isEmpty then []
  else [.choicesIgnored place field.type]

def choices (config : ApiConfig) : List Finding := onFields choicesOf config

/-! ### Bounds -/

def isLengthType (type : FieldType) : Bool := type == .string || type == .text

/-- Whether the bounds of a type are values. -/
def isNumericType (type : FieldType) : Bool := type == .integer || type == .number

def isCount (bound : Number) : Bool :=
  match bound.value? with
  | some q => q.den == 1 && 0 ≤ q.num
  | none => false

/-- Whether a number is finite. An integer too large for a double cannot be told. -/
def isFinite (n : Number) : Except Fault Bool :=
  match n with
  | .int i => if Number.fitsDouble i then .ok true else .error .numberTooLarge
  | .real x => .ok x.isFinite

def infiniteBounds (field : FieldSpec) : Except Fault (List Number) := do
  let checked ← field.bounds.mapM fun bound => return (bound, ← isFinite bound)
  return (checked.filter fun entry => !entry.2).map (·.1)

/-- The finding if both bounds are there and in the wrong order. -/
def reversed (place : Place) (field : FieldSpec) : List Finding :=
  match field.lower, field.upper with
  | some lower, some upper => if lower.exceeds upper then [.boundsReversed place lower upper] else []
  | _, _ => []

/-- Bounds have to be finite, in order, and counts where they are lengths. -/
def boundsOf (place : Place) (field : FieldSpec) : Except Fault (List Finding) := do
  if field.bounds.isEmpty then return []
  let infinite ← infiniteBounds field
  if !infinite.isEmpty then return [.boundsNotFinite place infinite]
  if !isLengthType field.type && !isNumericType field.type then
    return [.boundsIgnored place field.type]
  let lengths :=
    if isLengthType field.type then
      (field.bounds.filter fun bound => !isCount bound).map (.badLengthBound place)
    else []
  return reversed place field ++ lengths

def bounds (config : ApiConfig) : Except Fault (List Finding) := onFieldsWithFaults boundsOf config

/-! ### Defaults -/

/-- Whether a text is a date: digits of any script in groups of four, two and two. A line feed at its
end is not looked at. -/
def isDateText (text : String) : Bool :=
  let shape := (text.toList.map fun c => if Text.isDecimalDigit c then '0' else c)
  shape == "0000-00-00".toList || shape == "0000-00-00\n".toList

/-- Removes every occurrence of a pattern, from left to right. `skip` characters of an occurrence
are still to be passed. -/
def removeAll (pattern : List Char) (skip : Nat) : List Char → List Char
  | [] => []
  | c :: rest =>
    match skip with
    | left + 1 => removeAll pattern left rest
    | 0 =>
      if pattern.isPrefixOf (c :: rest) then removeAll pattern (pattern.length - 1) rest
      else c :: removeAll pattern 0 rest

/-- The digits of a universally unique identifier, without marks, braces and hyphens. -/
def uniqueIdDigits (text : String) : List Char :=
  let unmarked := removeAll "uuid:".toList 0 (removeAll "urn:".toList 0 text.toList)
  (Text.trimChars (fun c => c == '\x7b' || c == '\x7d') unmarked).filter (· != '-')

def isUniqueId (text : String) : Bool :=
  let digits := uniqueIdDigits text
  digits.length == 32
    && (match Number.readInteger 16 digits with
      | .read _ => true
      | _ => false)

def suits (type : FieldType) (default : Scalar) : Except Fault Bool :=
  match type, default with
  | _, .null => .ok true
  | .string, .text _ | .text, .text _ | .email, .text _ | .url, .text _ | .datetime, .text _ => .ok true
  | .date, .text s => .ok (isDateText s)
  | .uuid, .text s => .ok (isUniqueId s)
  | .integer, .number (.int _) => .ok true
  | .number, .number n => isFinite n
  | .boolean, .bool _ => .ok true
  | .choice, _ => .ok true
  | _, _ => .ok false

def isChosen (default : Scalar) (choices : List String) : Bool :=
  match default with
  | .text s => choices.contains s
  | _ => false

/-- A finding that shows a default; it has to be short enough to be shown. -/
def showing (default : Scalar) (finding : Finding) : Except Fault (List Finding) :=
  if default.hasText then .ok [finding] else .error .numberTooLong

def defaultOf (place : Place) (field : FieldSpec) (default : Scalar) :
    Except Fault (List Finding) := do
  if field.type = .choice then
    if field.choiceList.isEmpty || default = .null || isChosen default field.choiceList then return []
    else showing default (.defaultNotChosen place default)
  else if ← suits field.type default then return []
  else showing default (.defaultUnfit place default field.type)

def defaults (config : ApiConfig) : Except Fault (List Finding) :=
  onFieldsWithFaults
    (fun place field =>
      match field.declaredDefault with
      | some default => defaultOf place field default
      | none => .ok [])
    config

end ApiScaffold.Check
