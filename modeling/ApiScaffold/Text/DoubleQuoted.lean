import ApiScaffold.Text.Hex

/-!
Double-quoted text: quotes, backslashes and control characters are escaped. Characters outside
ASCII stand for themselves or, in the ASCII variant, are escaped as UTF-16 units.
-/

namespace ApiScaffold.Text

/-- Which characters beyond the mandatory ones are escaped. -/
inductive EscapeStyle where
  | controls
  | ascii
  deriving DecidableEq, Repr

/-- An escaped UTF-16 unit. -/
def escapedUnit (unit : Nat) : List Char := '\\' :: 'u' :: hexDigits 4 unit

/-- The characters that stand for one code point inside double quotes. -/
def escapedCode (style : EscapeStyle) (code : Nat) : List Char :=
  if code = 0x22 then ['\\', '"']
  else if code = 0x5C then ['\\', '\\']
  else if code = 0x0A then ['\\', 'n']
  else if code = 0x0D then ['\\', 'r']
  else if code = 0x09 then ['\\', 't']
  else if code = 0x08 then ['\\', 'b']
  else if code = 0x0C then ['\\', 'f']
  else if code < 0x20 then escapedUnit code
  else if style = .controls || code < 0x7F then [Char.ofNat code]
  else if code < 0x10000 then escapedUnit code
  else
    let offset := code - 0x10000
    escapedUnit (0xD800 + offset / 0x400) ++ escapedUnit (0xDC00 + offset % 0x400)

/-- Double-quotes code points; in the ASCII variant they may be unpaired surrogates. -/
def doubleQuotedCodes (style : EscapeStyle) (codes : List Nat) : String :=
  String.ofList ('"' :: codes.flatMap (escapedCode style) ++ ['"'])

def doubleQuoted (style : EscapeStyle) (s : String) : String :=
  doubleQuotedCodes style (s.toList.map Char.toNat)

end ApiScaffold.Text
