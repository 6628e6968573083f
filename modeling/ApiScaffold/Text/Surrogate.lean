import ApiScaffold.Text.Hex

/-!
Code points that are no characters. An escape can put a surrogate without its partner into a text;
where such a text has to be a string, private characters stand in for its surrogates.
-/

namespace ApiScaffold.Text

def isSurrogate (code : Nat) : Bool := 0xD800 ≤ code && code ≤ 0xDFFF

/-- How far the private character that stands in for a surrogate lies behind it. -/
def standInDistance : Nat := 0x100000

/-- The string of code points, with a stand-in for every surrogate. Different code points keep
different characters unless the private ones are in use themselves. -/
def withStandIns (codes : List Nat) : String :=
  String.ofList (codes.map fun code =>
    Char.ofNat (if isSurrogate code then code + standInDistance else code))

/-- The words for a text that has no bytes: they name the first surrogate, or the places of the first
few in a row. -/
def encodingFault (codes : List Nat) : String :=
  let first := (codes.takeWhile fun code => !isSurrogate code).length
  let run := (codes.drop first).takeWhile isSurrogate
  let place :=
    match run with
    | [code] => s!"character '\\u{hexPadded 4 code}' in position {first}"
    | run => s!"characters in position {first}-{first + run.length - 1}"
  s!"'utf-8' codec can't encode {place}: surrogates not allowed"

end ApiScaffold.Text
