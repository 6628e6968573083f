import ApiScaffold.Literal
import ApiScaffold.Shape.Problem
import ApiScaffold.Text.Surrogate
import ApiScaffold.Text.Utf8

/-!
Readers of the parts that documents are made of. A text may come as UTF-8 bytes, and a boolean or
number may come as a text that spells it.
-/

namespace ApiScaffold.Shape

/-- What a value is as text: a text, bytes in UTF-8, or neither. -/
inductive Wording where
  | text (s : String)
  | notUnicode (codes : List Nat)
  | badBytes
  | notText

def wording : Value → Wording
  | .text s => .text s
  | .brokenText codes => .notUnicode codes
  | .bytes content =>
    match Text.decodeUtf8 content with
    | .ok s => .text s
    | .error _ => .badBytes
  | _ => .notText

/-- Reads a text of at least some characters and, if a limit is given, not too many. Only where its
length matters does a text have to be Unicode. -/
def text (least : Nat) (most : Option Nat) (v : Value) : Checked String :=
  match wording v with
  | .text s =>
    if most.any (· < s.length) then .reject (.textTooLong (most.getD 0))
    else if s.length < least then .reject (.textTooShort least)
    else .sound s
  | .notUnicode codes =>
    if least = 0 && most.isNone then .sound (Text.withStandIns codes) else .reject .notUnicode
  | .badBytes => .reject .notUnicode
  | .notText => .reject .notText

def anyText (v : Value) : Checked String := text 0 none v

def nonEmptyText (v : Value) : Checked String := text 1 none v

def nullable {α : Type} (read : Value → Checked α) : Value → Checked (Option α)
  | .null => .sound none
  | v => some <$> read v

def wordsForFalse : List String := ["0", "off", "f", "false", "n", "no"]

def wordsForTrue : List String := ["1", "on", "t", "true", "y", "yes"]

/-- Integers of a machine word lie between this bound and its negative, which is one of them. -/
def wordBound : Int := twoTo 63

/-- The integer that a double is, if it is less than the bound of a machine word. -/
def wholeWord? (x : Binary64) : Option Int :=
  x.value?.bind fun q => if q.den = 1 && q.num.natAbs < twoTo 63 then some q.num else none

/-- Reads a boolean: itself, zero, one, or a word for it in any case. -/
def flag (v : Value) : Checked Bool :=
  match v with
  | .bool b => .sound b
  | .number n =>
    if n.equal (.int 0) then .sound false
    else if n.equal (.int 1) then .sound true
    else
      match n with
      | .int i => .reject (if -wordBound ≤ i && i < wordBound then .unreadableBoolean else .notABoolean)
      | .real x => .reject (if (wholeWord? x).isSome then .unreadableBoolean else .notABoolean)
  | v =>
    match wording v with
    | .text s =>
      let word := String.ofList (s.toList.map Char.toLower)
      if wordsForFalse.contains word then .sound false
      else if wordsForTrue.contains word then .sound true
      else .reject .unreadableBoolean
    | .notUnicode _ => .reject .notUnicode
    | .badBytes => .reject .unreadableBoolean
    | .notText => .reject .notABoolean

def list {α : Type} (least : Nat) (read : Value → Checked α) (v : Value) : Checked (List α) :=
  match v with
  | .list items | .tuple items | .set items =>
    (Checked.items read 0 items).andThen fun found =>
      if found.length < least then .reject (.listTooShort least) else .sound found
  | _ => .reject .notAList

/-- Reads one of some words. -/
def oneOf {α : Type} (all : List α) (name : α → String) (v : Value) : Checked α :=
  match v with
  | .text s =>
    match all.find? fun a => name a == s with
    | some a => .sound a
    | none => .reject (.notAmong (all.map name))
  | _ => .reject (.notAmong (all.map name))

/-! ### Numbers -/

/-- Whether underscores stand neither at an end nor next to each other. -/
def hasTidyUnderscores (s : List Char) : Bool :=
  s.head? != some '_' && s.getLast? != some '_' && !(s.zip (s.drop 1)).contains ('_', '_')

/-- Drops underscores, unless there is one at an end or next to another. -/
def tidied (s : List Char) : List Char := if hasTidyUnderscores s then s.filter (· != '_') else s

/-- What remains of an integer once its leading zeros are dropped, and underscores among them. Digits
or a minus sign may follow, or a point, in front of which one character stays; at the end the last
character stays. -/
def behindZeros? (last : Char) : List Char → Option (List Char)
  | [] => some [last]
  | c :: rest =>
    if c == '0' || c == '_' then behindZeros? c rest
    else if c.isDigit || c == '-' then some (c :: rest)
    else if c == '.' then some (last :: c :: rest)
    else none

/-- Drops the leading zeros of an integer, which begins with a digit. -/
def dropZeros? : List Char → Option (List Char)
  | [] => none
  | c :: rest =>
    if c == '0' then behindZeros? c rest else if c.isDigit then some (c :: rest) else none

/-- Drops a point with zeros behind it; any other fraction is refused. -/
def dropZeroFraction? (s : List Char) : Option (List Char) :=
  match s.dropWhile (· != '.') with
  | [] => some s
  | _ :: zeros =>
    if !zeros.isEmpty && zeros.all (· == '0') then some (s.takeWhile (· != '.')) else none

/-- Reads a double. Underscores are dropped if the text is none otherwise; blanks around a text with
underscores are not. -/
def decimal? (s : List Char) : Option Binary64 :=
  (Number.readPlainDouble? (Text.trimChars Text.isWhiteSpace s)).or
    (Number.readPlainDouble? (tidied s))

/-- What a text spells as a number. -/
inductive Spelling where
  | whole (value : Int)
  | tooLong
  | decimal (value : Binary64)
  | nothing

/-- Reads digits without leading zeros as an integer. -/
def digitSpelling (negative : Bool) (digits : List Char) : Spelling :=
  if Number.digitLimit < (digits.takeWhile Char.isDigit).length then .tooLong
  else if digits.isEmpty || !digits.all Char.isDigit then .nothing
  else if 1 < digits.length && digits.head? == some '0' then .nothing
  else
    let size : Int := Number.natOfDigits digits
    .whole (if negative then -size else size)

/-- Reads an integer: a sign, digits, and possibly a point with zeros. A minus sign may stand behind
leading zeros instead. -/
def integerSpelling (s : List Char) : Spelling :=
  let (negative, body) := Number.splitSign s
  match (dropZeros? body).bind dropZeroFraction? with
  | none => .nothing
  | some body =>
    match tidied body with
    | '-' :: digits => if negative then .nothing else digitSpelling true digits
    | digits => digitSpelling negative digits

/-- Reads a text as a number, as an integer if possible. -/
def spelling (text : String) : Spelling :=
  let s := text.toList
  match integerSpelling (Text.trimChars Text.isWhiteSpace s) with
  | .nothing => ((decimal? s).map .decimal).getD .nothing
  | found => found

/-- Two problems: a value is no integer for one reason and no number for another. -/
def neitherNumber {α : Type} (integer number : Defect) : Checked α :=
  .unsound [⟨["int"], integer⟩, ⟨["float"], number⟩]

/-- Reads a bound: an integer or a double, which stays what it is. -/
def bound (v : Value) : Checked Number :=
  match v with
  | .bool b => .sound (.int (if b then 1 else 0))
  | .number n => .sound n
  | v =>
    match wording v with
    | .text s =>
      match spelling s with
      | .whole i => .sound (.int i)
      | .decimal x => .sound (.real x)
      | .tooLong =>
        match decimal? s.toList with
        | some x => .sound (.real x)
        | none => neitherNumber .integerTooLong .unreadableNumber
      | .nothing => neitherNumber .unreadableInteger .unreadableNumber
    | .notUnicode _ => neitherNumber .notUnicode .notUnicode
    | .badBytes => neitherNumber .unreadableInteger .unreadableNumber
    | .notText => neitherNumber .notAnInteger .notANumber

/-- Reads an integer; a double without fraction counts as one. -/
def integer (v : Value) : Checked Int :=
  match v with
  | .bool b => .sound (if b then 1 else 0)
  | .number (.int i) => .sound i
  | .number (.real x) =>
    match x.value? with
    | none => .reject .notFinite
    | some q =>
      if q.den ≠ 1 then .reject .fractional
      else
        match wholeWord? x with
        | some i => .sound i
        | none => .reject .integerTooLong
  | v =>
    match wording v with
    | .text s =>
      match spelling s with
      | .whole i => .sound i
      | .tooLong => .reject .integerTooLong
      | _ => .reject .unreadableInteger
    | .notUnicode _ => .reject .notUnicode
    | .badBytes => .reject .unreadableInteger
    | .notText => .reject .notAnInteger

/-- Reads a default: null, a boolean, a number or a text. Dates and moments become their ISO text. -/
def scalar (v : Value) : Checked Scalar :=
  match v with
  | .date d => .sound (.text d.iso)
  | .moment m => .sound (.text m.iso)
  | .brokenText codes => .sound (.text (Text.withStandIns codes))
  | v =>
    match Scalar.ofValue? v with
    | some s => .sound s
    | none => .reject .defaultNotScalar

/-- Reads a text that may be written as a number. -/
def textOrNumber (v : Value) : Checked (Option String) :=
  match v with
  | .number n => if n.hasText then .sound (some n.text) else .reject .numberTooLong
  | v => nullable anyText v

end ApiScaffold.Shape
