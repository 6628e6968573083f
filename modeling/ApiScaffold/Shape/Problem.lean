import ApiScaffold.Number.Reading

/-!
Problems of shape: what is wrong with a part of a document, and the path to it. Checks do not stop
at the first problem, they gather all.
-/

namespace ApiScaffold.Shape

/-- What is wrong with a part of a document. -/
inductive Defect where
  | missing
  | unknownName
  | nameNotText
  | notAMapping (model : String)
  | notText
  | notUnicode
  | textTooShort (least : Nat)
  | textTooLong (most : Nat)
  | notABoolean
  | unreadableBoolean
  | notAList
  | listTooShort (least : Nat)
  | notAType (names : List String)
  | notAmong (names : List String)
  | notAnInteger
  | unreadableInteger
  | integerTooLong
  | fractional
  | notFinite
  | notANumber
  | unreadableNumber
  | defaultNotScalar
  | numberTooLong
  deriving DecidableEq, Repr

/-- Quoted names with commas between them and the last one after "or". -/
def alternatives (names : List String) : String :=
  let quoted := names.map fun name => s!"'{name}'"
  match quoted.getLast? with
  | none => ""
  | some last =>
    if quoted.length = 1 then last else String.intercalate ", " quoted.dropLast ++ " or " ++ last

/-- A count of things, with the plural unless it is one. -/
def counted (n : Nat) (thing : String) : String :=
  if n = 1 then s!"{n} {thing}" else s!"{n} {thing}s"

namespace Defect

def code : Defect → String
  | missing => "missing"
  | unknownName => "extra_forbidden"
  | nameNotText => "invalid_key"
  | notAMapping _ => "model_type"
  | notText => "string_type"
  | notUnicode => "string_unicode"
  | textTooShort _ => "string_too_short"
  | textTooLong _ => "string_too_long"
  | notABoolean => "bool_type"
  | unreadableBoolean => "bool_parsing"
  | notAList => "list_type"
  | listTooShort _ => "too_short"
  | notAType _ => "enum"
  | notAmong _ => "literal_error"
  | notAnInteger => "int_type"
  | unreadableInteger => "int_parsing"
  | integerTooLong => "int_parsing_size"
  | fractional => "int_from_float"
  | notFinite => "finite_number"
  | notANumber => "float_type"
  | unreadableNumber => "float_parsing"
  | defaultNotScalar => "value_error"
  | numberTooLong => "value_error"

def message : Defect → String
  | missing => "Field required"
  | unknownName => "Extra inputs are not permitted"
  | nameNotText => "Keys should be strings"
  | notAMapping model => s!"Input should be a valid dictionary or instance of {model}"
  | notText => "Input should be a valid string"
  | notUnicode => "Input should be a valid string, unable to parse raw data as a unicode string"
  | textTooShort least => "String should have at least " ++ counted least "character"
  | textTooLong most => "String should have at most " ++ counted most "character"
  | notABoolean => "Input should be a valid boolean"
  | unreadableBoolean => "Input should be a valid boolean, unable to interpret input"
  | notAList => "Input should be a valid list"
  | listTooShort least => "List should have at least " ++ counted least "item" ++ " after validation, not 0"
  | notAType names => s!"Input should be {alternatives names}"
  | notAmong names => s!"Input should be {alternatives names}"
  | notAnInteger => "Input should be a valid integer"
  | unreadableInteger => "Input should be a valid integer, unable to parse string as an integer"
  | integerTooLong => "Unable to parse input string as an integer, exceeded maximum size"
  | fractional => "Input should be a valid integer, got a number with a fractional part"
  | notFinite => "Input should be a finite number"
  | notANumber => "Input should be a valid number"
  | unreadableNumber => "Input should be a valid number, unable to parse string as a number"
  | defaultNotScalar => "Value error, default must be a string, number, boolean or null"
  | numberTooLong => "Value error, " ++ Number.tooLongMessage

end Defect

/-- A defect and the path to the part that has it. -/
structure Problem where
  path : List String
  defect : Defect
  deriving DecidableEq, Repr

namespace Problem

def pathText (p : Problem) : String := String.intercalate "." p.path

/-- The same problem seen from further outside. -/
def under (step : String) (p : Problem) : Problem := { p with path := step :: p.path }

/-- The path and the words for the defect. -/
def message (p : Problem) : String :=
  if p.pathText.isEmpty then p.defect.message else s!"{p.pathText}: {p.defect.message}"

end Problem

/-- The outcome of a check: a value, or all the problems that were found. -/
inductive Checked (α : Type) where
  | sound (value : α)
  | unsound (problems : List Problem)

namespace Checked

/-- An outcome with one problem at the place itself. -/
def reject {α : Type} (defect : Defect) : Checked α := .unsound [⟨[], defect⟩]

def problems {α : Type} : Checked α → List Problem
  | .sound _ => []
  | .unsound problems => problems

/-- Puts a value into a function. The problems of both sides are kept in order. -/
def apply {α β : Type} : Checked (α → β) → Checked α → Checked β
  | .sound f, .sound a => .sound (f a)
  | f, a => .unsound (f.problems ++ a.problems)

instance : Applicative Checked where
  pure := .sound
  seq f a := apply f (a ())

/-- Sees the problems from further outside. -/
def under {α : Type} (step : String) : Checked α → Checked α
  | .sound a => .sound a
  | .unsound problems => .unsound (problems.map (Problem.under step))

/-- A further check of a value that is sound so far. -/
def andThen {α β : Type} (a : Checked α) (check : α → Checked β) : Checked β :=
  match a with
  | .sound a => check a
  | .unsound problems => .unsound problems

/-- Checks items one by one; problems get the position of their item. -/
def items {α β : Type} (check : α → Checked β) (position : Nat) : List α → Checked (List β)
  | [] => .sound []
  | item :: rest =>
    (List.cons <$> (check item).under position.repr) <*> items check (position + 1) rest

end Checked

end ApiScaffold.Shape
