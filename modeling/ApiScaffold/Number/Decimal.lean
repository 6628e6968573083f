import ApiScaffold.Number.Reading

/-!
Texts of decimal numbers of any precision: a sign, digits with an optional point and exponent, or a
name of infinity or not-a-number. Underscores may stand anywhere, and digits of every script count.
-/

namespace ApiScaffold.Number

/-- The greatest exponent of the leading digit. -/
def greatestPower : Int := 999999999999999999

/-- The least exponent of the last digit. -/
def leastPower : Int := -1999999999999999997

/-- Whether the rest of a text is a name of something that is not a finite number. -/
def isNamedDecimal (body : List Char) : Bool :=
  let name := String.ofList ((body.takeWhile fun c => !c.isDigit).map Char.toLower)
  let digits := body.dropWhile fun c => !c.isDigit
  ((name == "inf" || name == "infinity") && digits.isEmpty)
    || ((name == "nan" || name == "snan") && digits.all Char.isDigit)

/-- Whether digits with a power of ten for the last one are in range. Leading zeros do not count. -/
def isPowerInRange (digits : List Nat) (power : Int) : Bool :=
  let significant := (digits.dropWhile (· == 0)).length
  leastPower ≤ power && power + ((max significant 1 : Nat) : Int) - 1 ≤ greatestPower

/-- Whether the rest of a text is digits with an optional point and exponent in range. -/
def isFiniteDecimal (body : List Char) : Bool :=
  let whole := body.takeWhile Char.isDigit
  let rest := body.dropWhile Char.isDigit
  let (fraction, rest) :=
    match rest with
    | '.' :: rest => (rest.takeWhile Char.isDigit, rest.dropWhile Char.isDigit)
    | rest => ([], rest)
  match readExponent? rest with
  | none => false
  | some exponent =>
    !(whole.isEmpty && fraction.isEmpty)
      && isPowerInRange ((whole ++ fraction).map fun c => c.toNat - 0x30) (exponent - fraction.length)

def isDecimal (s : List Char) : Bool :=
  let digits := (Text.trimChars Text.isBlank s).map fun c =>
    match Text.digitValue? c with
    | some d => Char.ofNat (0x30 + d)
    | none => c
  let (_, body) := splitSign (digits.filter (· != '_'))
  isNamedDecimal body || isFiniteDecimal body

end ApiScaffold.Number
