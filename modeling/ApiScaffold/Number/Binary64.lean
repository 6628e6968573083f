/-!
Double-precision numbers as exact values: a sign, a significand and a power of two. Every finite
double is a rational number, so comparison, truncation and rounding are done exactly.
-/

namespace ApiScaffold

def twoTo (n : Nat) : Nat := Nat.pow 2 n

def tenTo (n : Nat) : Nat := Nat.pow 10 n

/-- A double. A finite one is the significand times two to the exponent, where the significand is
below `2 ^ 53` and, unless the exponent is the least one, at least `2 ^ 52`. -/
inductive Binary64 where
  | finite (negative : Bool) (significand : Nat) (exponent : Int)
  | infinity (negative : Bool)
  | notANumber
  deriving DecidableEq, Repr, Inhabited

namespace Binary64

/-- The exponent of the smallest positive double. -/
def leastExponent : Int := -1074

/-- The exponent of the largest finite double. -/
def greatestExponent : Int := 971

def zero : Binary64 := .finite false 0 leastExponent

/-- Whether a double is a rational number. -/
def isFinite : Binary64 → Bool
  | .finite .. => true
  | _ => false

/-- The value of a finite double; infinities and not-a-number have none. -/
def value? : Binary64 → Option Rat
  | .finite negative significand exponent =>
    let magnitude : Rat :=
      if exponent < 0 then mkRat significand (twoTo exponent.natAbs)
      else (significand * twoTo exponent.toNat : Nat)
    some (if negative then -magnitude else magnitude)
  | _ => none

/-- Changes the sign. -/
def neg : Binary64 → Binary64
  | .finite negative significand exponent => .finite (!negative) significand exponent
  | .infinity negative => .infinity (!negative)
  | .notANumber => .notANumber

/-- A quotient of naturals rounded to an integer, ties to even. -/
def roundQuotient (numerator denominator : Nat) : Nat :=
  let quotient := numerator / denominator
  let doubled := numerator % denominator * 2
  if denominator < doubled || (doubled == denominator && quotient % 2 == 1) then quotient + 1
  else quotient

/-- The quotient of a magnitude by a power of two, rounded. -/
def roundAt (numerator denominator : Nat) (exponent : Int) : Nat :=
  if exponent < 0 then roundQuotient (numerator * twoTo exponent.natAbs) denominator
  else roundQuotient numerator (denominator * twoTo exponent.toNat)

def assemble (negative : Bool) (significand : Nat) (exponent : Int) : Binary64 :=
  let (significand, exponent) :=
    if significand < twoTo 53 then (significand, exponent) else (significand / 2, exponent + 1)
  if greatestExponent < exponent then .infinity negative
  else .finite negative significand exponent

/-- The power of two at which a magnitude has 53 significant bits. -/
def scaleExponent (numerator denominator : Nat) : Int :=
  let guess : Int := (Nat.log2 numerator : Int) - (Nat.log2 denominator : Int) - 52
  let reaches : Bool :=
    if guess < 0 then denominator * twoTo 52 ≤ numerator * twoTo guess.natAbs
    else denominator * twoTo (52 + guess.toNat) ≤ numerator
  max leastExponent (if reaches then guess else guess - 1)

/-- The double nearest to a fraction, ties to the even significand. -/
def ofFraction (negative : Bool) (numerator denominator : Nat) : Binary64 :=
  if numerator = 0 then .finite negative 0 leastExponent
  else
    let exponent := scaleExponent numerator denominator
    assemble negative (roundAt numerator denominator exponent) exponent

/-- The double nearest to a rational number; a zero gets the given sign. -/
def ofRat (negativeZero : Bool) (q : Rat) : Binary64 :=
  ofFraction (if q = 0 then negativeZero else q < 0) q.num.natAbs q.den

/-- The double nearest to an integer; `none` when it is beyond the finite range. -/
def ofInt? (i : Int) : Option Binary64 :=
  let x := ofFraction (i < 0) i.natAbs 1
  if x.isFinite then some x else none

/-- The sign bit; not-a-number counts as positive. -/
def isNegative : Binary64 → Bool
  | .finite negative _ _ | .infinity negative => negative
  | .notANumber => false

/-- The sum of two doubles. -/
def add (x y : Binary64) : Binary64 :=
  match x.value?, y.value? with
  | some p, some q => ofRat (x.isNegative && y.isNegative) (p + q)
  | some _, none => y
  | none, some _ => x
  | none, none => if x = y then x else .notANumber

/-- The product of two doubles. -/
def mul (x y : Binary64) : Binary64 :=
  let negative := x.isNegative != y.isNegative
  match x.value?, y.value? with
  | some p, some q => ofRat negative (p * q)
  | _, _ =>
    if x = .notANumber || y = .notANumber || x.value? = some 0 || y.value? = some 0 then .notANumber
    else .infinity negative

/-- The integer part of a finite double, towards zero. -/
def truncate? (x : Binary64) : Option Int :=
  x.value?.map fun q => Int.tdiv q.num q.den

/-- Numeric equality: zeros of either sign are equal and not-a-number equals nothing. -/
def equal (x y : Binary64) : Bool :=
  match x.value?, y.value? with
  | some p, some q => p == q
  | none, none => x != .notANumber && x == y
  | _, _ => false

end Binary64

end ApiScaffold
