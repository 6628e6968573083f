import ApiScaffold.Document.Value
import ApiScaffold.Text.DoubleQuoted

/-!
Scalars and their literals in generated code. Texts are written in double quotes with escapes, so
no character of a text can end its literal.
-/

namespace ApiScaffold

/-- A scalar of a configuration. -/
inductive Scalar where
  | null
  | bool (b : Bool)
  | number (n : Number)
  | text (s : String)
  deriving DecidableEq, Repr

namespace Scalar

def toValue : Scalar → Value
  | .null => .null
  | .bool b => .bool b
  | .number n => .number n
  | .text s => .text s

/-- A value of a document as a scalar, if it is one. -/
def ofValue? : Value → Option Scalar
  | .null => some .null
  | .bool b => some (.bool b)
  | .number n => some (.number n)
  | .text s => some (.text s)
  | _ => none

/-- Whether a scalar is short enough to be written. -/
def hasText : Scalar → Bool
  | .number n => n.hasText
  | _ => true

end Scalar

def textLiteral (s : String) : String := Text.doubleQuoted .controls s

/-- Why a value has no literal. -/
inductive LiteralFault where
  | unsupported (kind : String)
  | numberTooLong
  deriving DecidableEq, Repr

def LiteralFault.message : LiteralFault → String
  | .unsupported kind => s!"Cannot render {kind} as a Python literal."
  | .numberTooLong => Number.tooLongMessage

/-- The literal of a scalar. Integers beyond the digit limit have none. -/
def Scalar.literal : Scalar → Except LiteralFault String
  | .null => .ok "None"
  | .bool b => .ok (if b then "True" else "False")
  | .number n => if n.hasText then .ok n.text else .error .numberTooLong
  | .text s => .ok (textLiteral s)

/-- The literal of a value; only scalars have one. -/
def Value.literal (v : Value) : Except LiteralFault String :=
  match Scalar.ofValue? v with
  | some s => s.literal
  | none => .error (.unsupported v.kindName)

/-- The literal of a tuple of items with the given literals; a single item keeps a comma. -/
def tupleOf (literals : List String) : String :=
  let inner := String.intercalate ", " literals
  match literals with
  | [] => "()"
  | [_] => "(" ++ inner ++ ",)"
  | _ => "(" ++ inner ++ ")"

def tupleLiteral (items : List String) : String := tupleOf (items.map textLiteral)

end ApiScaffold
