import ApiScaffold.Text.Hex

/-!
Places in a document text and how a message points at them: line, column and an excerpt of the
line with a caret below it.
-/

namespace ApiScaffold.Yaml

/-- What a look beyond the end of the text gives. -/
def endOfText : Char := '\x00'

/-- The characters that end a line. -/
def isBreak (c : Char) : Bool :=
  c == '\n' || c == '\r' || c.toNat == 0x85 || c.toNat == 0x2028 || c.toNat == 0x2029

def isBreakOrEnd (c : Char) : Bool := c == endOfText || isBreak c

/-- A space, a line break or the end of the text. -/
def isSpaceOrEnd (c : Char) : Bool := c == ' ' || isBreakOrEnd c

/-- A space, a tab, a line break or the end of the text. -/
def isGap (c : Char) : Bool := c == '\t' || isSpaceOrEnd c

/-- A place: characters before it, lines before it and characters before it on its line. -/
structure Mark where
  offset : Nat
  line : Nat
  column : Nat
  deriving DecidableEq, Repr, Inhabited

namespace Mark

/-- The place after one more character, given the character that follows that one. A carriage
return before a line feed ends no line, and a byte order mark takes no column. -/
def after (m : Mark) (c next : Char) : Mark :=
  if isBreak c && !(c == '\r' && next == '\n') then ⟨m.offset + 1, m.line + 1, 0⟩
  else ⟨m.offset + 1, m.line, if c.toNat == 0xFEFF then m.column else m.column + 1⟩

/-- How far an excerpt reaches to either side of its place. -/
def reach : Nat := 36

/-- How many characters make room for the sign of omission. -/
def omitted : Nat := 5

def omission : String := " ... "

/-- The part of a line next to a place that an excerpt shows, nearest character first, and
whether more of the line is left out. -/
def nearPart (side : List Char) : List Char × Bool :=
  let line := side.takeWhile (!isBreakOrEnd ·)
  if reach < line.length then (line.take (reach + 1 - omitted), true) else (line, false)

/-- The excerpt around a place and the caret under it. -/
def excerpt (text : List Char) (m : Mark) : String :=
  let (before, cutBefore) := nearPart (text.take m.offset).reverse
  let (behind, cutBehind) := nearPart (text.drop m.offset)
  let head := if cutBefore then omission else ""
  let tail := if cutBehind then omission else ""
  "    " ++ head ++ String.ofList (before.reverse ++ behind) ++ tail ++ "\n"
    ++ String.ofList (List.replicate (4 + before.length + head.length) ' ') ++ "^"

/-- How a message points at a place. -/
def describe (text : List Char) (m : Mark) : String :=
  s!"  in \"<unicode string>\", line {m.line + 1}, column {m.column + 1}:\n" ++ m.excerpt text

end Mark

end ApiScaffold.Yaml
