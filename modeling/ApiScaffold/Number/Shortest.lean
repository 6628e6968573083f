import ApiScaffold.Number.Binary64

/-!
The shortest decimal text of a double. Among the decimals that read back as the double, one with
the fewest digits is taken, and of those the nearest.
-/

namespace ApiScaffold.Binary64

/-- The reals that round to a double: bounds over a common denominator, and whether they belong. -/
structure RoundingInterval where
  low : Nat
  mid : Nat
  high : Nat
  denominator : Nat
  closed : Bool

/-- The interval of a positive finite double. Below a power of two the gap is halved. -/
def roundingInterval (significand : Nat) (exponent : Int) : RoundingInterval :=
  let narrow := significand = twoTo 52 ∧ leastExponent < exponent
  let below := if narrow then 1 else 2
  let up := if exponent < 0 then 1 else twoTo exponent.toNat
  let denominator := if exponent < 0 then twoTo exponent.natAbs else 1
  { low := (4 * significand - below) * up
    mid := 4 * significand * up
    high := (4 * significand + 2) * up
    denominator := 4 * denominator
    closed := significand % 2 = 0 }

namespace RoundingInterval

/-- Whether a multiple of a power of ten, given as a fraction, lies in the interval. -/
def holds (r : RoundingInterval) (numerator denominator : Nat) : Bool :=
  let point := numerator * r.denominator
  let low := r.low * denominator
  let high := r.high * denominator
  if r.closed then low ≤ point && point ≤ high else low < point && point < high

/-- The candidate with the given number of digits below a power of ten: of the two multiples of
the unit around the value, one that lies in the interval, the nearer if both do. -/
def candidate? (r : RoundingInterval) (magnitude : Int) (digits : Nat) : Option Nat :=
  let unit := magnitude - digits
  let up := if unit < 0 then 1 else tenTo unit.toNat
  let down := if unit < 0 then tenTo unit.natAbs else 1
  let floor := r.mid * down / (r.denominator * up)
  let below := r.holds (floor * up) down
  let above := r.holds ((floor + 1) * up) down
  if below && above then
    let rest := r.mid * down - floor * (r.denominator * up)
    let width := r.denominator * up
    if rest * 2 < width || (rest * 2 = width && floor % 2 = 0) then some floor
    else some (floor + 1)
  else if below then some floor
  else if above then some (floor + 1)
  else none

/-- The first candidate that exists, trying more and more digits. -/
def search (r : RoundingInterval) (magnitude : Int) : Nat → Nat → Nat × Nat
  | 0, digits => (r.mid, digits)
  | fuel + 1, digits =>
    match r.candidate? magnitude digits with
    | some n => (n, digits)
    | none => r.search magnitude fuel (digits + 1)

end RoundingInterval

/-- The least power of ten above a positive fraction, as an exponent. -/
def decimalMagnitude (numerator denominator : Nat) : Int :=
  if denominator ≤ numerator then ((numerator / denominator).repr.length : Int)
  else
    let inverse := (denominator / numerator).repr.length
    let exact := tenTo (inverse - 1) * numerator = denominator
    if exact then 2 - (inverse : Int) else 1 - (inverse : Int)

/-- Drops the trailing zeros of a digit string. -/
def stripZeros (digits : List Char) : List Char := (digits.reverse.dropWhile (· == '0')).reverse

/-- The shortest digits of a positive finite double, and the power of ten just above it. -/
def shortestDigits (significand : Nat) (exponent : Int) : List Char × Int :=
  let r := roundingInterval significand exponent
  let magnitude := decimalMagnitude r.mid r.denominator
  let (n, digits) := r.search magnitude 17 1
  let text := n.repr.toList
  (stripZeros text, magnitude + text.length - digits)

/-- How doubles are written: the range of exponents written positionally and the least number of
exponent digits. -/
structure DoubleFormat where
  leastPositional : Int
  exponentialFrom : Int
  exponentDigits : Nat

/-- Positional below `10 ^ 16` and down to `10 ^ -4`, else with an exponent of two digits or more. -/
def standardFormat : DoubleFormat := ⟨-4, 16, 2⟩

def DoubleFormat.write (format : DoubleFormat) (digits : List Char) (exponent : Int) : List Char :=
  if format.leastPositional ≤ exponent ∧ exponent < format.exponentialFrom then
    if exponent < 0 then
      '0' :: '.' :: List.replicate (exponent.natAbs - 1) '0' ++ digits
    else
      let whole := exponent.toNat + 1
      let fraction := digits.drop whole
      digits.take whole ++ List.replicate (whole - digits.length) '0' ++
        '.' :: (if fraction.isEmpty then ['0'] else fraction)
  else
    let power := exponent.natAbs.repr.toList
    digits.take 1 ++ (if digits.length ≤ 1 then [] else '.' :: digits.drop 1) ++
      'e' :: (if exponent < 0 then '-' else '+') ::
        List.replicate (format.exponentDigits - power.length) '0' ++ power

def text : Binary64 → String
  | .finite negative significand exponent =>
    let body :=
      if significand = 0 then ['0', '.', '0']
      else
        let (digits, magnitude) := shortestDigits significand exponent
        standardFormat.write digits (magnitude - 1)
    String.ofList (if negative then '-' :: body else body)
  | .infinity negative => if negative then "-inf" else "inf"
  | .notANumber => "nan"

end ApiScaffold.Binary64
