import ApiScaffold.Yaml.Cursor
import ApiScaffold.Yaml.Fault
import ApiScaffold.Yaml.Token

/-!
Tokens around nodes and documents: directives, anchors, aliases and tags.
-/

namespace ApiScaffold.Yaml

/-- The characters of names: ASCII letters and digits, hyphen and underscore. -/
def isNameChar (c : Char) : Bool := c.isAlphanum || c == '-' || c == '_'

/-- The characters of tag addresses. -/
def isUriChar (c : Char) : Bool :=
  c.isAlphanum
    || ['-', ';', '/', '?', ':', '@', '&', '=', '+', '$', ',', '_', '.', '!', '~', '*', '\'', '(', ')',
        '[', ']', '%'].contains c

def readName (activity : Activity) (start : Mark) (cursor : Cursor) : Except Fault (String × Cursor) :=
  let (name, behind) := cursor.takeWhile isNameChar
  if name.isEmpty then
    .error (.lexical activity start
      (.expected "alphabetic or numeric character" behind.peek) behind.mark)
  else .ok (String.ofList name, behind)

/-- Asks for a character class at the cursor. -/
def require (p : Char → Bool) (what : String) (activity : Activity) (start : Mark)
    (cursor : Cursor) : Except Fault Unit :=
  if p cursor.peek then .ok ()
  else .error (.lexical activity start (.expected what cursor.peek) cursor.mark)

/-! ### Anchors and aliases -/

def mayFollowName (c : Char) : Bool :=
  isGap c || ['?', ':', ',', ']', '\x7d', '%', '@', '\x60'].contains c

def readAnchorName (activity : Activity) (cursor : Cursor) : Except Fault (String × Cursor) := do
  let start := cursor.mark
  let (name, behind) ← readName activity start cursor.advance
  require mayFollowName "alphabetic or numeric character" activity start behind
  return (name, behind)

/-! ### Tags -/

/-- Reads percent escapes in a row as UTF-8. -/
def readUriEscapes (activity : Activity) (start : Mark) (first : Mark) (cursor : Cursor)
    (bytes : List UInt8) : Nat → Except Fault (List Char × Cursor)
  | 0 => .ok ([], cursor)
  | fuel + 1 =>
    if cursor.peek == '%' then
      let digits := cursor.advance
      match Text.hexValue? digits.peek, Text.hexValue? (digits.peekAt 1) with
      | some high, some low =>
        readUriEscapes activity start first (digits.advanceBy 2)
          (bytes ++ [UInt8.ofNat (high * 16 + low)]) fuel
      | none, _ =>
        .error (.lexical activity start
          (.expected "URI escape sequence of 2 hexadecimal numbers" digits.peek) digits.mark)
      | some _, none =>
        .error (.lexical activity start
          (.expected "URI escape sequence of 2 hexadecimal numbers" (digits.peekAt 1)) digits.mark)
    else
      match Text.decodeUtf8 bytes with
      | .ok s => .ok (s.toList, cursor)
      | .error fault => .error (.lexical activity start (.badUri fault) first)

/-- Reads a nonempty address. Escapes are read for the activity of scanning and a missing address
is reported for the one of parsing. -/
def readUri (scanning parsing : Activity) (start : Mark) (cursor : Cursor) (chars : List Char) :
    Nat → Except Fault (String × Cursor)
  | 0 => .ok (String.ofList chars, cursor)
  | fuel + 1 => do
    let c := cursor.peek
    if c == '%' then
      let (decoded, behind) ←
        readUriEscapes scanning start cursor.mark cursor [] (cursor.rest.length + 1)
      readUri scanning parsing start behind (chars ++ decoded) fuel
    else if isUriChar c then readUri scanning parsing start cursor.advance (chars ++ [c]) fuel
    else if chars.isEmpty then throw (.lexical parsing start (.expected "URI" c) cursor.mark)
    else return (String.ofList chars, cursor)

/-- Reads a tag handle: an exclamation mark, or a name between two of them. -/
def readHandle (activity : Activity) (start : Mark) (cursor : Cursor) :
    Except Fault (String × Cursor) := do
  require (· == '!') "'!'" activity start cursor
  if cursor.peekAt 1 == ' ' then return ("!", cursor.advance)
  let (name, behind) := cursor.advance.takeWhile isNameChar
  require (· == '!') "'!'" activity start behind
  return ("!" ++ String.ofList name ++ "!", behind.advance)

/-- Whether a second exclamation mark follows before the next gap. -/
def hasSecondMark (rest : List Char) : Bool :=
  (rest.takeWhile (!isSpaceOrEnd ·)).contains '!'

/-- Reads a tag: verbatim, the bare non-specific one, or with a handle. -/
def readTag (cursor : Cursor) : Except Fault (TagSpelling × Cursor) := do
  let start := cursor.mark
  let next := cursor.peekAt 1
  let fuel := cursor.rest.length + 1
  let (spelling, behind) ←
    if next == '<' then
      let (uri, behind) ← readUri .tag .tagUri start (cursor.advanceBy 2) [] fuel
      require (· == '>') "'>'" .tagUri start behind
      pure (TagSpelling.mk none uri, behind.advance)
    else if isGap next then pure (TagSpelling.mk none "!", cursor.advance)
    else
      let (handle, behind) ←
        if hasSecondMark (cursor.rest.drop 1) then readHandle .tag start cursor
        else pure ("!", cursor.advance)
      let (suffix, behind) ← readUri .tag .tagUri start behind [] fuel
      pure (TagSpelling.mk (some handle) suffix, behind)
  require isSpaceOrEnd "' '" .tag start behind
  return (spelling, behind)

/-! ### Directives -/

def readVersionNumber (start : Mark) (cursor : Cursor) : Except Fault (Nat × Cursor) := do
  require Char.isDigit "a digit" .directive start cursor
  let (digits, behind) := cursor.takeWhile Char.isDigit
  if Number.digitLimit < digits.length then throw (.content (.integerTooLong digits.length))
  return (Number.natOfDigits digits, behind)

def readVersion (start : Mark) (cursor : Cursor) : Except Fault (Directive × Cursor) := do
  let (major, behind) ← readVersionNumber start cursor.skipSpaces
  require (· == '.') "a digit or '.'" .directive start behind
  let (minor, last) ← readVersionNumber start behind.advance
  require isSpaceOrEnd "a digit or ' '" .directive start last
  return (.version major minor, last)

def readHandleDirective (start : Mark) (cursor : Cursor) : Except Fault (Directive × Cursor) := do
  let (handle, behind) ← readHandle .directive start cursor.skipSpaces
  require (· == ' ') "' '" .directive start behind
  let addressed := behind.skipSpaces
  let (uri, last) ←
    readUri .directive .directiveUri start addressed [] (addressed.rest.length + 1)
  require isSpaceOrEnd "' '" .directive start last
  return (.handle handle uri, last)

/-- Reads a directive and the line break after it; also tells where its content stops. -/
def readDirective (cursor : Cursor) : Except Fault (Directive × Mark × Cursor) := do
  let start := cursor.mark
  let (name, behind) ← readName .directive start cursor.advance
  require isSpaceOrEnd "alphabetic or numeric character" .directive start behind
  let (content, last) ←
    if name = "YAML" then readVersion start behind
    else if name = "TAG" then readHandleDirective start behind
    else pure (.other name, behind.skipWhile (!isBreak ·))
  let rest := last.skipSpaces.skipComment
  require isBreakOrEnd "a comment or a line break" .directive start rest
  return (content, last.mark, rest.takeBreak.2)

end ApiScaffold.Yaml
