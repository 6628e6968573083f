import ApiScaffold.Yaml.Fault
import ApiScaffold.Yaml.Tag
import ApiScaffold.Yaml.Token

/-!
The values of scalars: what the text of a scalar denotes under its tag.
-/

namespace ApiScaffold.Yaml

def contentFault {α : Type} (fault : ContentFault) : Except Fault α := .error (.content fault)

/-- Reads an integer in a base; faults show the text that was read. -/
def integerIn (base : Nat) (content : ScalarText) : Except Fault Int :=
  match Number.readInteger base content.chars with
  | .read i => .ok i
  | .invalid => contentFault (.badInteger base content.codes)
  | .tooLong digits => contentFault (.integerTooLong digits)

/-- Reads a double; faults show the text that was read. -/
def doubleIn (content : ScalarText) : Except Fault Binary64 :=
  match Number.readDouble? content.chars with
  | some x => .ok x
  | none => contentFault (.badDouble content.codes)

/-- Splits the sign off a number whose underscores are dropped already. -/
def signedBody (content : ScalarText) : Except Fault (Bool × ScalarText) :=
  match content.chars with
  | [] => contentFault .emptyNumber
  | first :: _ => .ok (first = '-', content.drop (if first = '-' || first = '+' then 1 else 0))

/-- The value of an integer scalar: binary, hexadecimal, octal, in base 60 or decimal. -/
def integerContent (content : ScalarText) : Except Fault Int := do
  let (negative, body) ← signedBody (content.without '_')
  let magnitude ←
    match body.chars with
    | ['0'] => pure 0
    | '0' :: 'b' :: _ => integerIn 2 (body.drop 2)
    | '0' :: 'x' :: _ => integerIn 16 (body.drop 2)
    | '0' :: _ => integerIn 8 body
    | [] => contentFault .emptyNumber
    | chars =>
      if chars.contains ':' then do
        let parts ← (body.splitAt ':').mapM (integerIn 10)
        pure (parts.foldl (fun total part => total * 60 + part) 0)
      else integerIn 10 body
  return if negative then -magnitude else magnitude

/-- Adds the parts of a number in base 60, last one first, each step rounded. -/
def sumSixtieths (total : Binary64) (base : Int) : List Binary64 → Except Fault Binary64
  | [] => .ok total
  | part :: rest =>
    match Binary64.ofInt? base with
    | none => contentFault .powerTooLarge
    | some weight => sumSixtieths (total.add (part.mul weight)) (base * 60) rest

/-- A double scalar in small letters: whether it has a minus sign, and the rest. -/
def doubleBody (content : ScalarText) : Except Fault (Bool × ScalarText) :=
  signedBody (content.without '_').lowered

def isNotANumberWord (content : ScalarText) : Bool :=
  match doubleBody content with
  | .ok (_, body) => body.toString = ".nan"
  | .error _ => false

/-- The value of a double scalar: a decimal, a number in base 60, infinity or not-a-number. -/
def doubleContent (content : ScalarText) : Except Fault Binary64 := do
  let (negative, body) ← doubleBody content
  let signed (x : Binary64) : Binary64 := if negative then x.neg else x
  if body.toString = ".inf" then return signed (.infinity false)
  else if body.toString = ".nan" then return .notANumber
  else if body.chars.contains ':' then
    let parts ← (body.splitAt ':').mapM doubleIn
    return signed (← sumSixtieths Binary64.zero 1 parts.reverse)
  else return signed (← doubleIn body)

def booleanContent (content : ScalarText) : Except Fault Bool :=
  let word := content.lowered
  if ["yes", "true", "on"].contains word.toString then .ok true
  else if ["no", "false", "off"].contains word.toString then .ok false
  else contentFault (.unknownBoolean word.codes)

/-- The value of a timestamp scalar: a date, or a moment if it has a time of day. -/
def timestampContent (s : List Char) : Except Fault Value := do
  let body := if s.getLast? = some '\n' then s.dropLast else s
  let calendar {α : Type} (made : Except CalendarFault α) : Except Fault α :=
    made.mapError fun fault => .content (.calendar fault)
  match readTimestamp? body with
  | none => contentFault .notATimestamp
  | some ⟨year, month, day, _, none⟩ => return .date (← calendar (Date.make year month day))
  | some ⟨year, month, day, _, some time⟩ =>
    return .moment (← calendar
      (Moment.make year month day time.hour time.minute time.second (microseconds time.fraction)
        time.offset))

/-- The first run of code points that ASCII lacks: its codes and the place of the first. -/
def firstNonAscii (codes : List Nat) : Option (List Nat × Nat) :=
  let before := codes.takeWhile (· < 0x80)
  let run := (codes.dropWhile (· < 0x80)).takeWhile (0x80 ≤ ·)
  if run.isEmpty then none else some (run, before.length)

def binaryContent (content : ScalarText) (start : Mark) : Except Fault Value :=
  let fault (problem : Problem) : Except Fault Value :=
    .error (.marked ⟨.content, none, problem, start⟩)
  match firstNonAscii content.codes with
  | some (codes, first) => fault (.notAscii codes first (first + codes.length - 1))
  | none =>
    match Text.decodeBase64 content.chars with
    | .ok bytes => .ok (.bytes bytes)
    | .error problem => fault (.badBase64 problem)

/-- The value of a scalar under a tag; `none` where the tag does not ask for a scalar. -/
def scalarValue? (tag : Tag) (content : ScalarText) (start : Mark) : Option (Except Fault Value) :=
  match tag with
  | .null => some (.ok .null)
  | .bool => some ((booleanContent content).map .bool)
  | .int => some ((integerContent content).map .int)
  | .float => some ((doubleContent content).map .real)
  | .binary => some (binaryContent content start)
  | .timestamp => some (timestampContent content.chars)
  | .str => some (.ok content.toValue)
  | _ => none

end ApiScaffold.Yaml
