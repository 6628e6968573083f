import ApiScaffold.Number.Reading
import ApiScaffold.Number.Shortest

/-!
Numbers as configurations hold them: integers of any size and doubles, compared exactly.
-/

namespace ApiScaffold

def integerText : Int → String
  | .ofNat n => n.repr
  | .negSucc n => "-" ++ (n + 1).repr

/-- Integers at or beyond this bound are too long to be written. -/
def integerTextBound : Nat := tenTo Number.digitLimit

/-- Whether an integer is short enough to be written as decimal text. -/
def hasIntegerText (i : Int) : Bool := i.natAbs < integerTextBound

/-- An integer or a double. -/
inductive Number where
  | int (value : Int)
  | real (value : Binary64)
  deriving DecidableEq, Repr

namespace Number

/-- The exact value; infinities and not-a-number have none. -/
def value? : Number → Option Rat
  | .int i => some i
  | .real x => x.value?

/-- Whether a number has an exact value. -/
def isFinite : Number → Bool
  | .int _ => true
  | .real x => x.isFinite

/-- Whether the first number is greater than the second, compared as exact values. -/
def exceeds (x y : Number) : Bool :=
  match x.value?, y.value? with
  | some p, some q => q < p
  | _, _ => false

/-- Whether a number is an integer or more; infinity is more than all of them. -/
def atLeast (x : Number) (i : Int) : Bool :=
  match x with
  | .real (.infinity negative) => !negative
  | x => x.value?.any fun q => (i : Rat) ≤ q

/-- Numeric equality across the two kinds. -/
def equal : Number → Number → Bool
  | .int i, .int j => i == j
  | .real x, .real y => x.equal y
  | .int i, .real x | .real x, .int i => x.value? == some (i : Rat)

/-- Why a number has no integer part. -/
inductive TruncationFault where
  | notANumber
  | infinite
  deriving DecidableEq, Repr

/-- The integer part, towards zero. -/
def truncate : Number → Except TruncationFault Int
  | .int i => .ok i
  | .real .notANumber => .error .notANumber
  | .real (.infinity _) => .error .infinite
  | .real x => .ok (x.truncate?.getD 0)

/-- Whether an integer can be converted to a double. -/
def fitsDouble (i : Int) : Bool := (Binary64.ofInt? i).isSome

def text : Number → String
  | .int i => integerText i
  | .real x => x.text

/-- Whether a number is short enough to be written. -/
def hasText : Number → Bool
  | .int i => hasIntegerText i
  | .real _ => true

end Number

end ApiScaffold
