import ApiScaffold.Number.Binary64
import ApiScaffold.Text.Blank
import ApiScaffold.Text.DecimalDigit
import ApiScaffold.Text.Hex

/-!
Reading of numbers. Blanks around a number are skipped, digits of every script count, and single
underscores may stand between digits. Integers are read in a given base; decimal integers have a
length limit.
-/

namespace ApiScaffold.Number

/-- The most decimal digits an integer may have when it is read from or written to text. -/
def digitLimit : Nat := 4300

def tooLongMessage : String :=
  s!"Exceeds the limit ({digitLimit} digits) for integer string conversion; use sys.set_int_max_str_digits() to increase the limit"

/-- The outcome of reading an integer. -/
inductive IntegerReading where
  | read (value : Int)
  | invalid
  | tooLong (digits : Nat)
  deriving DecidableEq, Repr

/-- Replaces digits of other scripts by the usual ones and trims blanks. -/
def normalise (s : List Char) : List Char :=
  (Text.trimChars Text.isWhiteSpace s).map fun c =>
    match Text.digitValue? c with
    | some d => Char.ofNat (0x30 + d)
    | none => c

/-- The value of a digit in a base up to 16. -/
def digitIn? (base : Nat) (c : Char) : Option Nat :=
  (Text.hexValue? c).filter (· < base)

/-- A run of digits as read so far. -/
structure DigitRun where
  value : Nat := 0
  digits : Nat := 0
  afterUnderscore : Bool := true
  doubled : Bool := false

/-- Reads digits and underscores; gives the run and what follows it. Leading and doubled
underscores are marked. -/
def readDigits (base : Nat) (run : DigitRun) : List Char → DigitRun × List Char
  | [] => (run, [])
  | c :: rest =>
    if c = '_' then
      readDigits base
        { run with afterUnderscore := true, doubled := run.doubled || run.afterUnderscore } rest
    else
      match digitIn? base c with
      | some d =>
        readDigits base
          { run with value := run.value * base + d, digits := run.digits + 1, afterUnderscore := false }
          rest
      | none => (run, c :: rest)

/-- The letter that marks a base in front of the digits. -/
def baseLetter? (base : Nat) : Option Char :=
  if base = 16 then some 'x' else if base = 8 then some 'o' else if base = 2 then some 'b' else none

def dropBaseMark (base : Nat) : List Char → List Char
  | '0' :: c :: rest =>
    if baseLetter? base = some c.toLower then
      match rest with
      | '_' :: rest => rest
      | rest => rest
    else '0' :: c :: rest
  | s => s

/-- Splits off a sign; `true` stands for minus. -/
def splitSign : List Char → Bool × List Char
  | '-' :: rest => (true, rest)
  | '+' :: rest => (false, rest)
  | s => (false, s)

/-- Reads an integer in base 2, 8, 10 or 16. -/
def readInteger (base : Nat) (s : List Char) : IntegerReading :=
  let (negative, body) := splitSign (normalise s)
  let (run, rest) := readDigits base {} (dropBaseMark base body)
  if run.doubled || run.afterUnderscore then .invalid
  else if base = 10 && digitLimit < run.digits then .tooLong run.digits
  else if rest.isEmpty then .read (if negative then -(run.value : Int) else run.value)
  else .invalid

/-- Removes underscores that stand between digits; `none` if one stands elsewhere. -/
def dropUnderscores (afterDigit : Bool) : List Char → Option (List Char)
  | [] => some []
  | '_' :: rest =>
    match afterDigit, rest with
    | true, c :: _ => if c.isDigit then dropUnderscores false rest else none
    | _, _ => none
  | c :: rest => (dropUnderscores c.isDigit rest).map (c :: ·)

/-- The double nearest to `digits * 10 ^ power`. Powers far outside the range are settled by size
alone. -/
def doubleOfDecimal (negative : Bool) (digits : Nat) (power : Int) : Binary64 :=
  if digits = 0 then .finite negative 0 Binary64.leastExponent
  else
    let magnitude : Int := power + digits.repr.length
    if 400 < magnitude then .infinity negative
    else if magnitude < -400 then .finite negative 0 Binary64.leastExponent
    else if 0 ≤ power then Binary64.ofFraction negative (digits * tenTo power.toNat) 1
    else Binary64.ofFraction negative digits (tenTo power.natAbs)

/-- The number a run of decimal digits denotes. -/
def natOfDigits (digits : List Char) : Nat :=
  digits.foldl (fun total c => total * 10 + (c.toNat - 0x30)) 0

/-- The exponent part after a mantissa: nothing, or a letter, a sign and digits. -/
def readExponent? : List Char → Option Int
  | [] => some 0
  | c :: rest =>
    if c.toLower = 'e' then
      let (negative, digits) := splitSign rest
      if digits.isEmpty || !digits.all Char.isDigit then none
      else some (if negative then -(natOfDigits digits : Int) else natOfDigits digits)
    else none

/-- Reads a decimal number without blanks or underscores: digits with an optional point and
exponent, or a name of infinity or not-a-number. -/
def readPlainDouble? (s : List Char) : Option Binary64 :=
  let (negative, body) := splitSign s
  let name := String.ofList (body.map Char.toLower)
  if name = "inf" || name = "infinity" then some (.infinity negative)
  else if name = "nan" then some .notANumber
  else
    let whole := body.takeWhile Char.isDigit
    let rest := body.dropWhile Char.isDigit
    let (fraction, rest) :=
      match rest with
      | '.' :: rest => (rest.takeWhile Char.isDigit, rest.dropWhile Char.isDigit)
      | rest => ([], rest)
    if whole.isEmpty && fraction.isEmpty then none
    else
      (readExponent? rest).map fun exponent =>
        doubleOfDecimal negative (natOfDigits (whole ++ fraction)) (exponent - fraction.length)

def readDouble? (s : List Char) : Option Binary64 :=
  (dropUnderscores false (normalise s)).bind readPlainDouble?

end ApiScaffold.Number
