/-!
Lines of text. Counting knows the line feed alone; splitting knows every line boundary of Unicode
and the information separators.
-/

namespace ApiScaffold.Text

/-- The characters at which a text is split into lines. -/
def isLineBoundary (c : Char) : Bool :=
  let code := c.toNat
  (0x0A ≤ code && code ≤ 0x0D) || (0x1C ≤ code && code ≤ 0x1E) || code == 0x85 ||
    code == 0x2028 || code == 0x2029

/-- Splits after every boundary, given the reversed characters of the line under way. -/
def splitLinesFrom (line : List Char) : List Char → List (List Char)
  | [] => if line.isEmpty then [] else [line.reverse]
  | '\r' :: '\n' :: rest => line.reverse :: splitLinesFrom [] rest
  | c :: rest =>
    if isLineBoundary c then line.reverse :: splitLinesFrom [] rest
    else splitLinesFrom (c :: line) rest

/-- The lines of a text without their boundaries; a boundary at the end opens no line. -/
def splitLines (s : List Char) : List (List Char) := splitLinesFrom [] s

/-- How many lines a text has: its line feeds, and one more for an unfinished last line. -/
def countLines (s : String) : Nat :=
  let chars := s.toList
  chars.count '\n' + (if chars.isEmpty || chars.getLast? == some '\n' then 0 else 1)

/-- Turns carriage returns, alone or before a line feed, into line feeds. -/
def unifyNewlines : List Char → List Char
  | [] => []
  | '\r' :: '\n' :: rest => '\n' :: unifyNewlines rest
  | c :: rest => (if c = '\r' then '\n' else c) :: unifyNewlines rest

def joinLines (lines : List String) : String := String.intercalate "\n" lines

end ApiScaffold.Text
