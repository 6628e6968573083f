import ApiScaffold.Yaml.Token.Property
import ApiScaffold.Yaml.Token.Scalar

/-!
Splitting a document text into tokens. A scalar or collection turns out to be a key only when the
colon after it is met, so tokens that may become keys wait until that is settled.
-/

namespace ApiScaffold.Yaml

/-- A token that becomes a key if a colon follows it on its line. A required one begins a line of a
block mapping. -/
structure PossibleKey where
  tokenNumber : Nat
  required : Bool
  mark : Mark
  deriving DecidableEq, Repr

/-- The furthest a colon may be from the start of the key before it. -/
def keyReach : Nat := 1024

/-- The state of splitting: what is ahead, how deep it is nested, which tokens may become keys, and
the tokens that are not handed out yet. -/
structure Lexer where
  cursor : Cursor
  flowDepth : Int := 0
  indent : Int := -1
  outerIndents : List Int := []
  keyAllowed : Bool := true
  possibleKeys : List (Int × PossibleKey) := []
  waiting : List Token := []
  handedOut : Nat := 0
  finished : Bool := false

namespace Lexer

def start (text : List Char) : Lexer :=
  let cursor := Cursor.start text
  { cursor, waiting := [⟨.streamStart, cursor.mark, cursor.mark⟩] }

def inFlow (l : Lexer) : Bool := l.flowDepth != 0

def push (l : Lexer) (kind : TokenKind) (start stop : Mark) : Lexer :=
  { l with waiting := l.waiting ++ [⟨kind, start, stop⟩] }

/-- Appends a token without extent at the cursor. -/
def pushHere (l : Lexer) (kind : TokenKind) : Lexer := l.push kind l.cursor.mark l.cursor.mark

/-- Appends a token for the next characters and moves behind them. -/
def pushOver (l : Lexer) (kind : TokenKind) (count : Nat) : Lexer :=
  let behind := l.cursor.advanceBy count
  { l.push kind l.cursor.mark behind.mark with cursor := behind }

def insertAt (l : Lexer) (number : Nat) (kind : TokenKind) (mark : Mark) : Lexer :=
  { l with waiting := l.waiting.insertIdx (number - l.handedOut) ⟨kind, mark, mark⟩ }

/-! ### Keys that are not settled yet -/

/-- Whether a possible key can no longer be followed by its colon. -/
def isStale (l : Lexer) (key : PossibleKey) : Bool :=
  key.mark.line != l.cursor.mark.line || keyReach < l.cursor.mark.offset - key.mark.offset

def missingColon (l : Lexer) (key : PossibleKey) : Fault :=
  .lexical .simpleKey key.mark .missingColon l.cursor.mark

/-- Gives up the possible keys that are stale. -/
def dropStale (l : Lexer) : Except Fault Lexer :=
  match l.possibleKeys.find? fun (_, key) => l.isStale key && key.required with
  | some (_, key) => .error (l.missingColon key)
  | none => .ok { l with possibleKeys := l.possibleKeys.filter fun (_, key) => !l.isStale key }

/-- Gives up the possible key of the current depth. -/
def dropKey (l : Lexer) : Except Fault Lexer :=
  match l.possibleKeys.lookup l.flowDepth with
  | none => .ok l
  | some key =>
    if key.required then .error (l.missingColon key)
    else .ok { l with possibleKeys := l.possibleKeys.filter (·.1 != l.flowDepth) }

/-- Notes that the token at the cursor may become a key, where keys are allowed. -/
def noteKey (l : Lexer) : Except Fault Lexer :=
  if l.keyAllowed then do
    let required := !l.inFlow && l.indent == l.cursor.column
    let l ← l.dropKey
    let key : PossibleKey := ⟨l.handedOut + l.waiting.length, required, l.cursor.mark⟩
    return { l with possibleKeys := (l.flowDepth, key) :: l.possibleKeys }
  else .ok l

/-- Whether the first waiting token may still become a key. -/
def firstUnsettled (l : Lexer) : Bool :=
  let numbers := l.possibleKeys.map (·.2.tokenNumber)
  numbers.min? == some l.handedOut

/-! ### Indentation -/

def endBlocks (l : Lexer) (column : Int) : Lexer :=
  if l.inFlow then l
  else
    let indents := l.indent :: l.outerIndents
    let ended := (indents.takeWhile (column < ·)).length
    let blockEnd : Token := ⟨.blockEnd, l.cursor.mark, l.cursor.mark⟩
    { l with
      waiting := l.waiting ++ List.replicate ended blockEnd
      indent := (indents.drop ended).headD (-1)
      outerIndents := indents.drop (ended + 1) }

/-- Whether a column would begin a deeper block. -/
def isDeeper (l : Lexer) (column : Nat) : Bool := l.indent < column

/-- Makes a column the indentation of a new block. -/
def beginBlock (l : Lexer) (column : Nat) : Lexer :=
  { l with outerIndents := l.indent :: l.outerIndents, indent := column }

/-- Begins a block at the cursor if it stands deeper than the current one. -/
def beginBlockHere (l : Lexer) (kind : TokenKind) : Lexer :=
  if l.isDeeper l.cursor.column then (l.beginBlock l.cursor.column).pushHere kind else l

/-! ### Reading one token -/

/-- Skips spaces, comments and line breaks; a new line outside flow collections may begin with a
key. -/
def skipGaps (l : Lexer) : Nat → Lexer
  | 0 => l
  | fuel + 1 =>
    let cursor := l.cursor.skipSpaces.skipComment
    if isBreak cursor.peek then
      skipGaps { l with cursor := cursor.takeBreak.2, keyAllowed := l.keyAllowed || !l.inFlow } fuel
    else { l with cursor }

def skipByteOrderMark (l : Lexer) : Lexer :=
  if l.cursor.mark.offset == 0 && l.cursor.peek.toNat == 0xFEFF then
    { l with cursor := l.cursor.advance }
  else l

def readStreamEnd (l : Lexer) : Except Fault Lexer := do
  let l ← (l.endBlocks (-1)).dropKey
  return { l.pushHere .streamEnd with keyAllowed := false, possibleKeys := [], finished := true }

def endDocumentBlocks (l : Lexer) : Except Fault Lexer := do
  let l ← (l.endBlocks (-1)).dropKey
  return { l with keyAllowed := false }

def readDirectiveToken (l : Lexer) : Except Fault Lexer := do
  let l ← l.endDocumentBlocks
  let (content, stop, behind) ← readDirective l.cursor
  return { l.push (.directive content) l.cursor.mark stop with cursor := behind }

def readSeparator (l : Lexer) (kind : TokenKind) : Except Fault Lexer := do
  let l ← l.endDocumentBlocks
  return l.pushOver kind 3

def openFlow (l : Lexer) (kind : TokenKind) : Except Fault Lexer := do
  let l ← l.noteKey
  return { l with flowDepth := l.flowDepth + 1, keyAllowed := true }.pushOver kind 1

def closeFlow (l : Lexer) (kind : TokenKind) : Except Fault Lexer := do
  let l ← l.dropKey
  return { l with flowDepth := l.flowDepth - 1, keyAllowed := false }.pushOver kind 1

/-- The comma of a flow collection. -/
def readFlowEntry (l : Lexer) : Except Fault Lexer := do
  let l ← { l with keyAllowed := true }.dropKey
  return l.pushOver .flowEntry 1

/-- The dash of a block sequence. -/
def readBlockEntry (l : Lexer) : Except Fault Lexer := do
  if !l.inFlow && !l.keyAllowed then
    throw (.lexicalAt .sequenceEntryNotAllowed l.cursor.mark)
  let l := if l.inFlow then l else l.beginBlockHere .blockSequenceStart
  let l ← { l with keyAllowed := true }.dropKey
  return l.pushOver .blockEntry 1

def readKeyMark (l : Lexer) : Except Fault Lexer := do
  if !l.inFlow && !l.keyAllowed then
    throw (.lexicalAt .mappingKeyNotAllowed l.cursor.mark)
  let l := if l.inFlow then l else l.beginBlockHere .blockMappingStart
  let l ← { l with keyAllowed := !l.inFlow }.dropKey
  return l.pushOver .key 1

/-- The colon after a key that was noted: the key gets its token, and before it, if it stands
deeper than the current block, the start of a block mapping. -/
def settleKey (l : Lexer) (key : PossibleKey) : Lexer :=
  let l := { l with possibleKeys := l.possibleKeys.filter (·.1 != l.flowDepth), keyAllowed := false }
  let l := l.insertAt key.tokenNumber .key key.mark
  if !l.inFlow && l.isDeeper key.mark.column then
    (l.beginBlock key.mark.column).insertAt key.tokenNumber .blockMappingStart key.mark
  else l

def readValueMark (l : Lexer) : Except Fault Lexer := do
  match l.possibleKeys.lookup l.flowDepth with
  | some key => return (l.settleKey key).pushOver .value 1
  | none =>
    if !l.inFlow && !l.keyAllowed then
      throw (.lexicalAt .mappingValueNotAllowed l.cursor.mark)
    let l := if l.inFlow then l else l.beginBlockHere .blockMappingStart
    let l ← { l with keyAllowed := !l.inFlow }.dropKey
    return l.pushOver .value 1

def readAlias (l : Lexer) : Except Fault Lexer := do
  let l ← l.noteKey
  let (name, behind) ← readAnchorName .alias l.cursor
  return { l.push (.alias name) l.cursor.mark behind.mark with cursor := behind, keyAllowed := false }

def readAnchor (l : Lexer) : Except Fault Lexer := do
  let l ← l.noteKey
  let (name, behind) ← readAnchorName .anchor l.cursor
  return { l.push (.anchor name) l.cursor.mark behind.mark with cursor := behind, keyAllowed := false }

def readTagToken (l : Lexer) : Except Fault Lexer := do
  let l ← l.noteKey
  let (spelling, behind) ← readTag l.cursor
  return { l.push (.tag spelling) l.cursor.mark behind.mark with cursor := behind, keyAllowed := false }

/-- A block scalar; a key may follow it. -/
def readBlockScalar (l : Lexer) (folded : Bool) : Except Fault Lexer := do
  let l ← { l with keyAllowed := true }.dropKey
  let reading ← readBlock folded l.indent l.cursor
  return { l.push (.scalar reading.content false) l.cursor.mark reading.stop with
    cursor := reading.cursor }

def readQuotedScalar (l : Lexer) (double : Bool) : Except Fault Lexer := do
  let l ← l.noteKey
  let reading ← readQuoted double l.cursor.mark [] l.cursor.advance (l.cursor.rest.length + 1)
  return { l.push (.scalar reading.content false) l.cursor.mark reading.stop with
    cursor := reading.cursor, keyAllowed := false }

/-- A plain scalar; a key may follow it if it stopped at the beginning of a line. -/
def readPlainScalar (l : Lexer) : Except Fault Lexer := do
  let l ← l.noteKey
  let start : PlainReading := ⟨[], l.cursor.mark, l.cursor, false⟩
  let reading := readPlain l.inFlow (l.indent + 1) start [] (l.cursor.rest.length + 1)
  return { l.push (.scalar (.ofChars reading.before.reverse) true) l.cursor.mark reading.stop with
    cursor := reading.cursor, keyAllowed := reading.atLineStart }

/-- The characters that cannot begin a plain scalar on their own. -/
def isIndicator (c : Char) : Bool :=
  ['-', '?', ':', ',', '[', ']', '\x7b', '\x7d', '#', '&', '*', '!', '|', '>', '\'', '"', '%', '@',
    '\x60'].contains c

def beginsPlain (l : Lexer) : Bool :=
  let c := l.cursor.peek
  (!isGap c && !isIndicator c)
    || (!isGap (l.cursor.peekAt 1) && (c == '-' || (!l.inFlow && (c == '?' || c == ':'))))

/-- Reads the next token, or several at once where blocks begin or end. -/
def fetch (l : Lexer) : Except Fault Lexer := do
  let l := l.skipByteOrderMark
  let l ← (l.skipGaps (l.cursor.rest.length + 1)).dropStale
  let l := l.endBlocks l.cursor.column
  let c := l.cursor.peek
  let gapNext := isGap (l.cursor.peekAt 1)
  let lineStart := l.cursor.column == 0
  if c == endOfText then l.readStreamEnd
  else if c == '%' && lineStart then l.readDirectiveToken
  else if lineStart && l.cursor.atSeparator '-' then l.readSeparator .documentStart
  else if lineStart && l.cursor.atSeparator '.' then l.readSeparator .documentEnd
  else if c == '[' then l.openFlow .flowSequenceStart
  else if c == '\x7b' then l.openFlow .flowMappingStart
  else if c == ']' then l.closeFlow .flowSequenceEnd
  else if c == '\x7d' then l.closeFlow .flowMappingEnd
  else if c == ',' then l.readFlowEntry
  else if c == '-' && gapNext then l.readBlockEntry
  else if c == '?' && (l.inFlow || gapNext) then l.readKeyMark
  else if c == ':' && (l.inFlow || gapNext) then l.readValueMark
  else if c == '*' then l.readAlias
  else if c == '&' then l.readAnchor
  else if c == '!' then l.readTagToken
  else if c == '|' && !l.inFlow then l.readBlockScalar false
  else if c == '>' && !l.inFlow then l.readBlockScalar true
  else if c == '\'' then l.readQuotedScalar false
  else if c == '"' then l.readQuotedScalar true
  else if l.beginsPlain then l.readPlainScalar
  else throw (.marked ⟨.lexical, some (.nextToken, none), .strayCharacter c, l.cursor.mark⟩)

/-- Whether more text has to be read before the first waiting token can be handed out. -/
def needsMore (l : Lexer) : Except Fault (Bool × Lexer) :=
  if l.finished then .ok (false, l)
  else if l.waiting.isEmpty then .ok (true, l)
  else do
    let l ← l.dropStale
    return (l.firstUnsettled, l)

/-- Hands out tokens until none is left. A fault ends them: it is met only by a reader who asks for
more. -/
def drain (l : Lexer) (tokens : Array Token) : Nat → Array Token × Option Fault
  | 0 => (tokens, none)
  | fuel + 1 =>
    match l.needsMore with
    | .error fault => (tokens, some fault)
    | .ok (true, l) =>
      match l.fetch with
      | .error fault => (tokens, some fault)
      | .ok l => drain l tokens fuel
    | .ok (false, l) =>
      match l.waiting with
      | [] => (tokens, none)
      | token :: rest =>
        drain { l with waiting := rest, handedOut := l.handedOut + 1 } (tokens.push token) fuel

end Lexer

/-- The tokens of a text up to its end or to the first fault. -/
structure TokenStream where
  tokens : List Token
  fault : Option Fault

/-- Splits a text into tokens. Every character yields at most five of them. -/
def tokenize (text : List Char) : TokenStream :=
  let (tokens, fault) := (Lexer.start text).drain #[] (6 * text.length + 12)
  ⟨tokens.toList, fault⟩

end ApiScaffold.Yaml
