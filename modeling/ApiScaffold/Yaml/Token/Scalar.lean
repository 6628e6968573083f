import ApiScaffold.Yaml.Cursor
import ApiScaffold.Yaml.Fault
import ApiScaffold.Yaml.Token

/-!
Scalar tokens: plain, quoted and block scalars with their folding of lines.
-/

namespace ApiScaffold.Yaml

/-- A scalar that has been read: its text, where it stops, and the cursor behind it. -/
structure ScalarReading where
  content : ScalarText
  stop : Mark
  cursor : Cursor

/-! ### Plain scalars -/

/-- Whether a plain scalar stops at a character, given the one after it. -/
def endsPlain (inFlow : Bool) (c next : Char) : Bool :=
  isGap c
    || (c == ':' && (isGap next || (inFlow && [',', '[', ']', '\x7b', '\x7d'].contains next)))
    || (inFlow && [',', '?', '[', ']', '\x7b', '\x7d'].contains c)

/-- How many characters a plain scalar takes before it is interrupted. -/
def plainLength (inFlow : Bool) : List Char → Nat
  | [] => 0
  | c :: rest =>
    if endsPlain inFlow c (rest.headD endOfText) then 0 else plainLength inFlow rest + 1

/-- Reads the line breaks and spaces between the lines of a plain scalar, up to a document
separator. The flag tells whether one was met. -/
def plainBreaks (cursor : Cursor) (breaks : List Char) : Nat → List Char × Bool × Cursor
  | 0 => (breaks, false, cursor)
  | fuel + 1 =>
    if cursor.peek == ' ' then plainBreaks cursor.advance breaks fuel
    else if isBreak cursor.peek then
      let (lineBreak, behind) := cursor.takeBreak
      if behind.atAnySeparator then (breaks ++ lineBreak, true, behind)
      else plainBreaks behind (breaks ++ lineBreak) fuel
    else (breaks, false, cursor)

/-- The characters that folded lines leave: a lone line feed becomes a space, and of several the
first is dropped. -/
def foldedBreaks (first : List Char) (others : List Char) : List Char :=
  if first != ['\n'] then first ++ others
  else if others.isEmpty then [' ']
  else others

/-- The gap inside a plain scalar: what it contributes, whether a line ended in it, and the cursor
behind it. Nothing is contributed where the scalar cannot go on. -/
def plainGap (cursor : Cursor) : List Char × Bool × Cursor :=
  let (spaces, behind) := cursor.takeWhile (· == ' ')
  if isBreak behind.peek then
    let (first, next) := behind.takeBreak
    if next.atAnySeparator then ([], true, next)
    else
      let (others, stopped, last) := plainBreaks next [] (next.rest.length + 1)
      if stopped then ([], true, last) else (foldedBreaks first others, true, last)
  else (spaces, false, behind)

/-- A plain scalar, with its last character first, and whether it stopped at the beginning of a
line. -/
structure PlainReading where
  before : List Char
  stop : Mark
  cursor : Cursor
  atLineStart : Bool

/-- Reads a plain scalar chunk by chunk; `gap` is what stands between the last chunk and the
cursor. -/
def readPlain (inFlow : Bool) (indent : Int) (reading : PlainReading) (gap : List Char) :
    Nat → PlainReading
  | 0 => reading
  | fuel + 1 =>
    let length := plainLength inFlow reading.cursor.rest
    if reading.cursor.peek == '#' || length = 0 then reading
    else
      let (chunk, behind) := reading.cursor.take length
      let (nextGap, broken, next) := plainGap behind
      let before := chunk.reverseAux (gap.reverseAux reading.before)
      let reading : PlainReading := ⟨before, behind.mark, next, broken⟩
      if nextGap.isEmpty || next.peek == '#' || (!inFlow && (next.column : Int) < indent) then reading
      else readPlain inFlow indent reading nextGap fuel

/-! ### Quoted scalars -/

/-- The code point an escape letter stands for. -/
def escapeCode? (c : Char) : Option Nat :=
  [('0', 0x00), ('a', 0x07), ('b', 0x08), ('t', 0x09), ('\t', 0x09), ('n', 0x0A), ('v', 0x0B),
    ('f', 0x0C), ('r', 0x0D), ('e', 0x1B), (' ', 0x20), ('"', 0x22), ('\\', 0x5C), ('/', 0x2F),
    ('N', 0x85), ('_', 0xA0), ('L', 0x2028), ('P', 0x2029)].lookup c

/-- How many hexadecimal digits follow an escape letter. -/
def escapeLength? (c : Char) : Option Nat := [('x', 2), ('u', 4), ('U', 8)].lookup c

def readEscapeCode (start : Mark) (cursor : Cursor) (length : Nat) : Except Fault (Nat × Cursor) :=
  let (digits, behind) := cursor.take length
  match (List.range length).find? fun k => (Text.hexValue? (cursor.peekAt k)).isNone with
  | some k =>
    .error (.lexical .doubleQuotedScalar start
      (.expected s!"escape sequence of {length} hexadecimal numbers" (cursor.peekAt k)) cursor.mark)
  | none =>
    let code := (Text.hexNumber? digits).getD 0
    if code < 0x110000 then .ok (code, behind)
    else if code < 0x80000000 then .error (.content .codePointTooLarge)
    else .error (.content .codePointFarTooLarge)

/-- Reads the line breaks between the lines of a quoted scalar. -/
def quotedBreaks (start : Mark) (cursor : Cursor) (breaks : List Char) :
    Nat → Except Fault (List Char × Cursor)
  | 0 => .ok (breaks, cursor)
  | fuel + 1 =>
    if cursor.atAnySeparator then
      .error (.lexical .quotedScalar start .unexpectedSeparator cursor.mark)
    else
      let cursor := cursor.skipWhile fun c => c == ' ' || c == '\t'
      if isBreak cursor.peek then
        let (lineBreak, behind) := cursor.takeBreak
        quotedBreaks start behind (breaks ++ lineBreak) fuel
      else .ok (breaks, cursor)

/-- Whether a character interrupts the run of ordinary characters of a quoted scalar. -/
def interruptsQuoted (c : Char) : Bool := c == '\'' || c == '"' || c == '\\' || isGap c

/-- Reads the gap inside a quoted scalar: blanks stay, folded lines leave what they leave. -/
def quotedGap (start : Mark) (cursor : Cursor) : Except Fault (List Char × Cursor) := do
  let (blanks, behind) := cursor.takeWhile fun c => c == ' ' || c == '\t'
  if behind.peek == endOfText then
    throw (.lexical .quotedScalar start .unexpectedEnd behind.mark)
  else if isBreak behind.peek then
    let (first, next) := behind.takeBreak
    let (others, last) ← quotedBreaks start next [] (next.rest.length + 1)
    return (foldedBreaks first others, last)
  else return (blanks, behind)

/-- Reads a quoted scalar up to its closing quote; the codes read before come last one first. -/
def readQuoted (double : Bool) (start : Mark) (before : List Nat) (cursor : Cursor) :
    Nat → Except Fault ScalarReading
  | 0 => .error (.lexical .quotedScalar start .unexpectedEnd cursor.mark)
  | fuel + 1 => do
    let (plain, cursor) := cursor.takeWhile (!interruptsQuoted ·)
    let before := plain.foldl (fun codes c => c.toNat :: codes) before
    let c := cursor.peek
    if !double && c == '\'' && cursor.peekAt 1 == '\'' then
      readQuoted double start (0x27 :: before) (cursor.advanceBy 2) fuel
    else if c == (if double then '"' else '\'') then
      let behind := cursor.advance
      return ⟨⟨before.reverse⟩, behind.mark, behind⟩
    else if c == '\'' || c == '"' || (!double && c == '\\') then
      readQuoted double start (c.toNat :: before) cursor.advance fuel
    else if c == '\\' then
      let cursor := cursor.advance
      let letter := cursor.peek
      match escapeCode? letter, escapeLength? letter with
      | some code, _ => readQuoted double start (code :: before) cursor.advance fuel
      | none, some length =>
        let (code, behind) ← readEscapeCode start cursor.advance length
        readQuoted double start (code :: before) behind fuel
      | none, none =>
        if isBreak letter then
          let (_, next) := cursor.takeBreak
          let (breaks, last) ← quotedBreaks start next [] (next.rest.length + 1)
          readQuoted double start (breaks.foldl (fun codes c => c.toNat :: codes) before) last fuel
        else throw (.lexical .doubleQuotedScalar start (.unknownEscape letter) cursor.mark)
    else
      let (gap, behind) ← quotedGap start cursor
      readQuoted double start (gap.foldl (fun codes c => c.toNat :: codes) before) behind fuel

/-! ### Block scalars -/

/-- What happens to the line breaks at the end of a block scalar. -/
inductive Chomping where
  | strip
  | clip
  | keep
  deriving DecidableEq, Repr

/-- The chomping a sign asks for. -/
def chomping? (c : Char) : Option Chomping :=
  if c == '+' then some .keep else if c == '-' then some .strip else none

/-- Reads an indentation indicator, if there is one. -/
def readIndentation (start : Mark) (cursor : Cursor) : Except Fault (Option Nat × Cursor) :=
  if cursor.peek.isDigit then
    if cursor.peek == '0' then .error (.lexical .blockScalar start .zeroIndentation cursor.mark)
    else .ok (some (cursor.peek.toNat - 0x30), cursor.advance)
  else .ok (none, cursor)

/-- Reads the indicators of a block scalar, in either order. -/
def readBlockHeader (start : Mark) (cursor : Cursor) :
    Except Fault (Chomping × Option Nat × Cursor) := do
  let (chomping, increment, cursor) ←
    match chomping? cursor.peek with
    | some chomping =>
      let (increment, behind) ← readIndentation start cursor.advance
      pure (chomping, increment, behind)
    | none =>
      let (increment, behind) ← readIndentation start cursor
      match increment, chomping? behind.peek with
      | some _, some chomping => pure (chomping, increment, behind.advance)
      | _, _ => pure (.clip, increment, behind)
  if isSpaceOrEnd cursor.peek then return (chomping, increment, cursor)
  else
    throw (.lexical .blockScalar start
      (.expected "chomping or indentation indicators" cursor.peek) cursor.mark)

/-- Skips the rest of the header line, which may only hold a comment. -/
def skipHeaderLine (start : Mark) (cursor : Cursor) : Except Fault Cursor :=
  let cursor := cursor.skipSpaces.skipComment
  if isBreakOrEnd cursor.peek then .ok cursor.takeBreak.2
  else
    .error (.lexical .blockScalar start (.expected "a comment or a line break" cursor.peek) cursor.mark)

/-- The empty lines at the head of a block scalar: their breaks, the widest column of spaces, where
the last break stops, and the cursor at the first text. -/
def leadingBreaks (cursor : Cursor) (breaks : List Char) (widest : Nat) (stop : Mark) :
    Nat → List Char × Nat × Mark × Cursor
  | 0 => (breaks, widest, stop, cursor)
  | fuel + 1 =>
    if isBreak cursor.peek then
      let (lineBreak, behind) := cursor.takeBreak
      leadingBreaks behind (breaks ++ lineBreak) widest behind.mark fuel
    else if cursor.peek == ' ' then
      let behind := cursor.advance
      leadingBreaks behind breaks (max widest behind.column) stop fuel
    else (breaks, widest, stop, cursor)

/-- Skips spaces up to a column. -/
def skipIndentation (cursor : Cursor) (indent : Nat) : Cursor :=
  cursor.advanceBy ((cursor.rest.take (indent - cursor.column)).takeWhile (· == ' ')).length

/-- The empty lines between the lines of a block scalar of known indentation. -/
def innerBreaks (indent : Nat) (cursor : Cursor) (breaks : List Char) (stop : Mark) :
    Nat → List Char × Mark × Cursor
  | 0 => (breaks, stop, cursor)
  | fuel + 1 =>
    let cursor := skipIndentation cursor indent
    if isBreak cursor.peek then
      let (lineBreak, behind) := cursor.takeBreak
      innerBreaks indent behind (breaks ++ lineBreak) behind.mark fuel
    else (breaks, stop, cursor)

/-- A block scalar under way: its text with the last character first, the break of the last line, the
empty lines after it, where those stop, and the cursor. -/
structure BlockReading where
  before : List Char
  lastBreak : List Char
  breaks : List Char
  stop : Mark
  cursor : Cursor

def readBlockLines (folded : Bool) (indent : Nat) (reading : BlockReading) : Nat → BlockReading
  | 0 => reading
  | fuel + 1 =>
    let continues (c : Cursor) : Bool := c.column == indent && c.peek != endOfText
    let blank (c : Cursor) : Bool := c.peek == ' ' || c.peek == '\t'
    if continues reading.cursor then
      let (line, behind) := reading.cursor.takeWhile (!isBreak ·)
      let (lineBreak, next) := behind.takeBreak
      let (breaks, stop, last) := innerBreaks indent next [] next.mark (next.rest.length + 1)
      let before := line.reverseAux (reading.breaks.reverseAux reading.before)
      if continues last then
        let joint :=
          if folded && lineBreak == ['\n'] && !blank reading.cursor && !blank last then
            (if breaks.isEmpty then [' '] else [])
          else lineBreak
        readBlockLines folded indent ⟨joint.reverseAux before, lineBreak, breaks, stop, last⟩ fuel
      else ⟨before, lineBreak, breaks, stop, last⟩
    else reading

/-- Reads a block scalar; `parent` is the indentation of the block it stands in. -/
def readBlock (folded : Bool) (parent : Int) (cursor : Cursor) : Except Fault ScalarReading := do
  let start := cursor.mark
  let (chomping, increment, cursor) ← readBlockHeader start cursor.advance
  let cursor ← skipHeaderLine start cursor
  let least := (max 1 (parent + 1)).toNat
  let fuel := cursor.rest.length + 1
  let (indent, breaks, stop, cursor) :=
    match increment with
    | none =>
      let (breaks, widest, stop, behind) := leadingBreaks cursor [] 0 cursor.mark fuel
      (max least widest, breaks, stop, behind)
    | some n =>
      let (breaks, stop, behind) := innerBreaks (least + n - 1) cursor [] cursor.mark fuel
      (least + n - 1, breaks, stop, behind)
  let reading := readBlockLines folded indent ⟨[], [], breaks, stop, cursor⟩ fuel
  let text := reading.before.reverse
  let text :=
    match chomping with
    | .strip => text
    | .clip => text ++ reading.lastBreak
    | .keep => text ++ reading.lastBreak ++ reading.breaks
  return ⟨.ofChars text, reading.stop, reading.cursor⟩

end ApiScaffold.Yaml
