import ApiScaffold.Text.Hex
import ApiScaffold.Text.Printable

/-!
Quoted display of text. The quotes are single unless the text holds a single quote and no double
one; a backslash, the quote in use and every character that is not printable are escaped.
-/

namespace ApiScaffold.Text

/-- The characters that stand for one code point inside the given quote. -/
def quotedCode (quote code : Nat) : List Char :=
  if code == 0x5C || code == quote then ['\\', Char.ofNat code]
  else if code == 0x0A then ['\\', 'n']
  else if code == 0x0D then ['\\', 'r']
  else if code == 0x09 then ['\\', 't']
  else if isPrintableCode code then [Char.ofNat code]
  else if code ≤ 0xFF then '\\' :: 'x' :: hexDigits 2 code
  else if code ≤ 0xFFFF then '\\' :: 'u' :: hexDigits 4 code
  else '\\' :: 'U' :: hexDigits 8 code

/-- Quotes a sequence of code points, unpaired surrogates included. -/
def quotedCodes (codes : List Nat) : String :=
  let quote := if codes.contains 0x27 && !codes.contains 0x22 then 0x22 else 0x27
  String.ofList
    (Char.ofNat quote :: codes.flatMap (quotedCode quote) ++ [Char.ofNat quote])

def quoted (s : String) : String := quotedCodes (s.toList.map Char.toNat)

def quotedChar (c : Char) : String := quotedCodes [c.toNat]

end ApiScaffold.Text
