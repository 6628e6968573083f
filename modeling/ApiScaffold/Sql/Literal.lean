import ApiScaffold.Document.Display
import ApiScaffold.Number.Basic
import ApiScaffold.Number.Decimal
import ApiScaffold.Sql.Definition

/-!
Literals of values in statements. What a value has to be depends on the type of its column.
-/

namespace ApiScaffold.Sql

/-- Reads bytes as an integer; they have to be ASCII. -/
def integerOfBytes? (content : List UInt8) : Option Int :=
  if content.all (· < 0x80) then
    match Number.readInteger 10 (content.map fun b => Char.ofNat b.toNat) with
    | .read i => some i
    | _ => none
  else none

/-- A value as an integer: numbers are cut off at the point, texts and bytes are read. -/
def integerOf? : Value → Option Int
  | .bool b => some (if b then 1 else 0)
  | .number n => n.truncate.toOption
  | .text s =>
    match Number.readInteger 10 s.toList with
    | .read i => some i
    | _ => none
  | .bytes content => integerOfBytes? content
  | _ => none

def isDigitValue : Value → Bool
  | .bool _ => true
  | .number (.int i) => 0 ≤ i && i ≤ 9
  | _ => false

def isSignValue : Value → Bool
  | .bool _ => true
  | .number (.int i) => i == 0 || i == 1
  | _ => false

def digitValue : Value → Nat
  | .bool b => if b then 1 else 0
  | .number (.int i) => i.toNat
  | _ => 0

/-- Whether a value is an exponent with which digits make a decimal number, or says that the number is
not finite. -/
def isExponentValue (digits : List Value) : Value → Bool
  | .bool b => Number.isPowerInRange (digits.map digitValue) (if b then 1 else 0)
  | .number (.int power) => Number.isPowerInRange (digits.map digitValue) power
  | .text s => s == "F" || s == "n" || s == "N"
  | _ => false

/-- Whether a value can be a decimal number: a number, a text that spells one, or its parts. -/
def isReal : Value → Bool
  | .bool _ | .number _ => true
  | .text s => Number.isDecimal s.toList
  | .tuple [sign, .tuple digits, power] | .tuple [sign, .list digits, power] =>
    isSignValue sign && digits.all isDigitValue && isExponentValue digits power
  | _ => false

/-- The literal of a value in a column of a type, if it has one. -/
def literal? (storage : Storage) (v : Value) : Option String :=
  match storage with
  | .text =>
    match v with
    | .text s => some (textLiteral s)
    | _ => none
  | .integer => (integerOf? v).bind fun i => if hasIntegerText i then some (integerText i) else none
  | .real => if isReal v && v.isShowable then some v.display else none

/-- How many characters of a value are shown at most in a fault. -/
def shownLimit : Nat := 300

/-- A long text with its middle left out. -/
def shortened (s : String) : String :=
  let chars := s.toList
  if chars.length ≤ shownLimit then s
  else
    String.ofList (chars.take (shownLimit / 2))
      ++ s!" ... ({chars.length - shownLimit} characters truncated) ... "
      ++ String.ofList (chars.drop (chars.length - shownLimit / 2))

end ApiScaffold.Sql
