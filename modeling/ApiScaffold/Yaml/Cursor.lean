import ApiScaffold.Yaml.Mark

/-!
A cursor in a document text: the characters still ahead and the place they start at.
-/

namespace ApiScaffold.Yaml

/-- The rest of a text and its place. -/
structure Cursor where
  rest : List Char
  mark : Mark

namespace Cursor

def start (text : List Char) : Cursor := ⟨text, ⟨0, 0, 0⟩⟩

/-- The next character. -/
def peek (c : Cursor) : Char := c.rest.headD endOfText

/-- The character a number of steps ahead. -/
def peekAt (c : Cursor) (n : Nat) : Char := c.rest.getD n endOfText

/-- The column of the next character. -/
def column (c : Cursor) : Nat := c.mark.column

/-- Moves over the characters of a list from a place. -/
def markAfter (m : Mark) (following : Char) : List Char → Mark
  | [] => m
  | c :: rest => markAfter (m.after c (rest.headD following)) following rest

/-- Moves on by a number of characters. -/
def advanceBy (c : Cursor) (n : Nat) : Cursor :=
  ⟨c.rest.drop n, markAfter c.mark (c.peekAt n) (c.rest.take n)⟩

/-- Moves on by one character. -/
def advance (c : Cursor) : Cursor := c.advanceBy 1

/-- Reads a number of characters. -/
def take (c : Cursor) (n : Nat) : List Char × Cursor := (c.rest.take n, c.advanceBy n)

/-- Reads the characters ahead that belong to a class. -/
def takeWhile (c : Cursor) (p : Char → Bool) : List Char × Cursor :=
  c.take (c.rest.takeWhile p).length

/-- Skips the characters ahead that belong to a class. -/
def skipWhile (c : Cursor) (p : Char → Bool) : Cursor := (c.takeWhile p).2

def skipSpaces (c : Cursor) : Cursor := c.skipWhile (· == ' ')

/-- Skips a comment up to the end of its line. -/
def skipComment (c : Cursor) : Cursor :=
  if c.peek == '#' then c.skipWhile (!isBreak ·) else c

/-- Reads a line break, if there is one: the line and paragraph separators stay as they are and
every other break becomes a line feed. -/
def takeBreak (c : Cursor) : List Char × Cursor :=
  if c.peek == '\r' && c.peekAt 1 == '\n' then (['\n'], c.advanceBy 2)
  else if c.peek.toNat == 0x2028 || c.peek.toNat == 0x2029 then ([c.peek], c.advance)
  else if isBreak c.peek then (['\n'], c.advance)
  else ([], c)

/-- Whether a line that starts here with the given three signs ends or begins a document. -/
def atSeparator (c : Cursor) (sign : Char) : Bool :=
  c.peek == sign && c.peekAt 1 == sign && c.peekAt 2 == sign && isGap (c.peekAt 3)

/-- Whether a document separator of either kind is ahead. -/
def atAnySeparator (c : Cursor) : Bool := c.atSeparator '-' || c.atSeparator '.'

end Cursor

end ApiScaffold.Yaml
