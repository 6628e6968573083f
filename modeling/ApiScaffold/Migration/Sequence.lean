import ApiScaffold.Generation.Fault

/-!
Sequences of migration tokens. A token is the stamp of the sequence and a counter; a step that fails
takes no token.
-/

namespace ApiScaffold

/-- The state of a sequence: its stamp, the next counter, the width counters are padded to, and the
tokens that were issued. -/
structure Sequence where
  stamp : String
  next : Int := 1
  width : Int := 4
  issued : List String := []
  deriving DecidableEq, Repr

namespace Sequence

/-- The stamp of a moment: its fields to the minute, the year without padding. -/
def stampOf (m : Moment) : String :=
  s!"{m.date.year}{zeroPadded 2 m.date.month}{zeroPadded 2 m.date.day}{zeroPadded 2 m.hour}{zeroPadded 2 m.minute}"

/-- A number with zeros between its sign and its digits up to a width that counts the sign. -/
def paddedText (width : Nat) (n : Int) : String :=
  if n < 0 then "-" ++ zeroPadded (width - 1) n.natAbs else zeroPadded width n.natAbs

def widthBound : Int := twoTo 63

/-- Texts of at least this many characters are not made. -/
def memoryBound : Int := twoTo 33

/-- A counter as text. A width below zero or out of bounds is refused. -/
def counterText (width n : Int) : Except GenerationFault String :=
  if !hasIntegerText width then .error (.literal .numberTooLong)
  else if width < 0 then .error (.width (.negative width))
  else if widthBound ≤ width then .error (.width .tooLarge)
  else if !hasIntegerText n then .error (.literal .numberTooLong)
  else if memoryBound ≤ width then .error (.width .outOfMemory)
  else .ok (paddedText width.toNat n)

def token (sequence : Sequence) : Except GenerationFault String :=
  (counterText sequence.width sequence.next).map fun counter => sequence.stamp ++ "_" ++ counter

/-- The sequence after a token was issued. -/
def advance (sequence : Sequence) (token : String) : Sequence :=
  { sequence with next := sequence.next + 1, issued := sequence.issued ++ [token] }

def summary (sequence : Sequence) : String :=
  s!"<MigrationSequence {sequence.stamp} next={integerText sequence.next}>"

end Sequence

/-- A step that may take tokens of a sequence and may fail. What it took stays taken. -/
abbrev Issuing := ExceptT GenerationFault (StateM Sequence)

/-- An outcome without tokens as a step. -/
def Issuing.ofExcept {α : Type} : Except GenerationFault α → Issuing α
  | .ok a => pure a
  | .error fault => throw fault

/-- Takes the next token. -/
def issueToken : Issuing String := do
  let sequence ← get
  match sequence.token with
  | .error fault => throw fault
  | .ok token =>
    set (sequence.advance token)
    return token

end ApiScaffold
