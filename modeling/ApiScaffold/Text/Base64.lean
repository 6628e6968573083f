/-!
Lenient decoding of Base64: characters outside the alphabet are skipped, and a complete padding
ends the data.
-/

namespace ApiScaffold.Text

/-- Why a text is no Base64 data. -/
inductive Base64Fault where
  | strayCharacter (dataCharacters : Nat)
  | badPadding
  deriving DecidableEq, Repr

namespace Base64Fault

def message : Base64Fault → String
  | .strayCharacter n =>
    s!"Invalid base64-encoded string: number of data characters ({n}) cannot be 1 more than a multiple of 4"
  | .badPadding => "Incorrect padding"

end Base64Fault

/-- The six bits of a character of the alphabet. -/
def base64Value? (c : Char) : Option Nat :=
  if 'A' ≤ c ∧ c ≤ 'Z' then some (c.toNat - 0x41)
  else if 'a' ≤ c ∧ c ≤ 'z' then some (c.toNat - 0x47)
  else if '0' ≤ c ∧ c ≤ '9' then some (c.toNat + 4)
  else if c = '+' then some 62
  else if c = '/' then some 63
  else none

/-- Decodes from inside a group of four characters: `filled` of them are read, their bits not yet
in a byte are `left`, and `pads` padding signs came since. The bytes so far are in reverse. -/
def decodeBase64From (filled left pads : Nat) (bytes : List UInt8) :
    List Char → Except Base64Fault (List UInt8)
  | [] =>
    if filled = 0 then .ok bytes.reverse
    else if filled = 1 then .error (.strayCharacter (bytes.length / 3 * 4 + 1))
    else .error .badPadding
  | c :: rest =>
    if c = '=' then
      if 2 ≤ filled then
        if 4 ≤ filled + pads + 1 then .ok bytes.reverse
        else decodeBase64From filled left (pads + 1) bytes rest
      else decodeBase64From filled left pads bytes rest
    else
      match base64Value? c with
      | none => decodeBase64From filled left pads bytes rest
      | some value =>
        match filled with
        | 0 => decodeBase64From 1 value 0 bytes rest
        | 1 => decodeBase64From 2 (value % 16) 0 (UInt8.ofNat (left * 4 + value / 16) :: bytes) rest
        | 2 => decodeBase64From 3 (value % 4) 0 (UInt8.ofNat (left * 16 + value / 4) :: bytes) rest
        | _ => decodeBase64From 0 0 0 (UInt8.ofNat (left * 64 + value) :: bytes) rest

def decodeBase64 (s : List Char) : Except Base64Fault (List UInt8) := decodeBase64From 0 0 0 [] s

end ApiScaffold.Text
