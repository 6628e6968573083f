import ApiScaffold.Text.Hex

/-!
Decoding of UTF-8. A malformed sequence is reported with the bytes it covers and what is wrong
with them.
-/

namespace ApiScaffold.Text

/-- What makes a byte sequence malformed. -/
inductive Malformed where
  | badStart
  | badContinuation
  | unfinished
  deriving DecidableEq, Repr

/-- A malformed sequence: its first byte, its position and its length in bytes. -/
structure DecodingFault where
  byte : UInt8
  position : Nat
  length : Nat
  problem : Malformed
  deriving DecidableEq, Repr

namespace DecodingFault

def reason (fault : DecodingFault) : String :=
  match fault.problem with
  | .badStart => "invalid start byte"
  | .badContinuation => "invalid continuation byte"
  | .unfinished => "unexpected end of data"

/-- The report names the byte when one is at fault and the range of positions otherwise. -/
def message (fault : DecodingFault) : String :=
  let place :=
    if fault.length ≤ 1 then
      s!"byte 0x{hexPadded 2 fault.byte.toNat} in position {fault.position}"
    else s!"bytes in position {fault.position}-{fault.position + fault.length - 1}"
  s!"'utf-8' codec can't decode {place}: {fault.reason}"

end DecodingFault

/-- How many bytes follow a first byte, and the bounds of the one after it. -/
def utf8Lead? (b : UInt8) : Option (Nat × UInt8 × UInt8) :=
  if b < 0x80 then some (0, 0x80, 0xBF)
  else if b < 0xC2 then none
  else if b < 0xE0 then some (1, 0x80, 0xBF)
  else if b == 0xE0 then some (2, 0xA0, 0xBF)
  else if b == 0xED then some (2, 0x80, 0x9F)
  else if b < 0xF0 then some (2, 0x80, 0xBF)
  else if b == 0xF0 then some (3, 0x90, 0xBF)
  else if b < 0xF4 then some (3, 0x80, 0xBF)
  else if b == 0xF4 then some (3, 0x80, 0x8F)
  else none

/-- The bits of the first byte that belong to the code point. -/
def utf8LeadBits (following : Nat) (b : UInt8) : Nat :=
  if following = 0 then b.toNat else b.toNat % (64 >>> following)

/-- A code point under way: the first byte and its position, the bytes read and still owed, the
bits so far, and the bounds of the next byte. -/
structure PendingCode where
  lead : UInt8
  position : Nat
  taken : Nat
  owed : Nat
  bits : Nat
  low : UInt8
  high : UInt8

def decodeUtf8From (position : Nat) (pending : Option PendingCode) :
    List UInt8 → Except DecodingFault (List Char)
  | [] =>
    match pending with
    | none => .ok []
    | some p => .error ⟨p.lead, p.position, p.taken, .unfinished⟩
  | b :: rest =>
    match pending with
    | some p =>
      if b < p.low || p.high < b then .error ⟨p.lead, p.position, p.taken, .badContinuation⟩
      else
        let bits := p.bits * 64 + b.toNat % 64
        if p.owed ≤ 1 then (decodeUtf8From (position + 1) none rest).map (Char.ofNat bits :: ·)
        else
          decodeUtf8From (position + 1)
            (some ⟨p.lead, p.position, p.taken + 1, p.owed - 1, bits, 0x80, 0xBF⟩) rest
    | none =>
      match utf8Lead? b with
      | none => .error ⟨b, position, 1, .badStart⟩
      | some (0, _, _) => (decodeUtf8From (position + 1) none rest).map (Char.ofNat b.toNat :: ·)
      | some (following, low, high) =>
        decodeUtf8From (position + 1)
          (some ⟨b, position, 1, following, utf8LeadBits following b, low, high⟩) rest

def decodeUtf8 (bytes : List UInt8) : Except DecodingFault String :=
  (decodeUtf8From 0 none bytes).map String.ofList

def utf8Bytes (s : String) : List UInt8 := s.toUTF8.toList

end ApiScaffold.Text
