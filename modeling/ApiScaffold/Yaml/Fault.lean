import ApiScaffold.Calendar
import ApiScaffold.Number.Reading
import ApiScaffold.Text.Base64
import ApiScaffold.Text.Quoted
import ApiScaffold.Text.Utf8
import ApiScaffold.Yaml.Mark

/-!
What can be wrong with a document text. A fault in the text names what was being read and what was
found instead; a scalar whose text does not fit its tag is a fault of content.
-/

namespace ApiScaffold.Yaml

/-- The layer of the text a fault belongs to. -/
inductive Layer where
  | lexical
  | structural
  | reference
  | content
  deriving DecidableEq, Repr

/-- What was being read when a fault was found. -/
inductive Activity where
  | nextToken
  | simpleKey
  | directive
  | directiveUri
  | alias
  | anchor
  | tag
  | tagUri
  | blockScalar
  | quotedScalar
  | doubleQuotedScalar
  | blockMapping
  | blockSequence
  | flowMapping
  | flowSequence
  | node
  | blockNode
  | flowNode
  | firstAnchor (name : String)
  | singleDocument
  | mappingContent
  | orderedMap
  | pairs
  deriving DecidableEq, Repr

def Activity.text : Activity → String
  | .nextToken => "while scanning for the next token"
  | .simpleKey => "while scanning a simple key"
  | .directive => "while scanning a directive"
  | .directiveUri => "while parsing a directive"
  | .alias => "while scanning an alias"
  | .anchor => "while scanning an anchor"
  | .tag => "while scanning a tag"
  | .tagUri => "while parsing a tag"
  | .blockScalar => "while scanning a block scalar"
  | .quotedScalar => "while scanning a quoted scalar"
  | .doubleQuotedScalar => "while scanning a double-quoted scalar"
  | .blockMapping => "while parsing a block mapping"
  | .blockSequence => "while parsing a block collection"
  | .flowMapping => "while parsing a flow mapping"
  | .flowSequence => "while parsing a flow sequence"
  | .node => "while parsing a node"
  | .blockNode => "while parsing a block node"
  | .flowNode => "while parsing a flow node"
  | .firstAnchor name => s!"found duplicate anchor {Text.quoted name}; first occurrence"
  | .singleDocument => "expected a single document in the stream"
  | .mappingContent => "while constructing a mapping"
  | .orderedMap => "while constructing an ordered map"
  | .pairs => "while constructing pairs"

/-- What a node can be. -/
inductive NodeKind where
  | scalar
  | sequence
  | mapping
  deriving DecidableEq, Repr

def NodeKind.text : NodeKind → String
  | .scalar => "scalar"
  | .sequence => "sequence"
  | .mapping => "mapping"

/-- What is wrong at a place of the text. `expected` names what should have been there and the
character found, or the end of the text, in its place. -/
inductive Problem where
  | strayCharacter (found : Char)
  | missingColon
  | expected (what : String) (found : Char)
  | zeroIndentation
  | unexpectedEnd
  | unexpectedSeparator
  | unknownEscape (found : Char)
  | badUri (fault : Text.DecodingFault)
  | mappingValueNotAllowed
  | mappingKeyNotAllowed
  | sequenceEntryNotAllowed
  | expectedToken (what found : String)
  | expectedFlow (closing : String) (found : String)
  | duplicateVersion
  | incompatibleVersion
  | duplicateHandle (handle : String)
  | undefinedHandle (handle : String)
  | undefinedAlias (name : String)
  | secondAnchor
  | anotherDocument
  | unknownTag (tag : String)
  | expectedKind (expected found : NodeKind)
  | unhashableKey
  | badMergeValue (found : NodeKind)
  | badMergeItem (found : NodeKind)
  | notASequence (found : NodeKind)
  | notASingleMapping (found : NodeKind)
  | notASingleItem (count : Nat)
  | badBase64 (fault : Text.Base64Fault)
  | notAscii (codes : List Nat) (first last : Nat)
  deriving DecidableEq, Repr

/-- The words for a character that ASCII lacks, or for several in a row. -/
def notAsciiText (codes : List Nat) (first last : Nat) : String :=
  let place :=
    if first = last then
      s!"character '{String.ofList ((codes.take 1).flatMap (escapedNonAscii ·))}' in position {first}"
    else s!"characters in position {first}-{last}"
  s!"'ascii' codec can't encode {place}: ordinal not in range(128)"
where
  escapedNonAscii (code : Nat) : List Char :=
    if code ≤ 0xFF then '\\' :: 'x' :: Text.hexDigits 2 code
    else if code ≤ 0xFFFF then '\\' :: 'u' :: Text.hexDigits 4 code
    else '\\' :: 'U' :: Text.hexDigits 8 code

def Problem.text : Problem → String
  | .strayCharacter c => s!"found character {Text.quotedChar c} that cannot start any token"
  | .missingColon => "could not find expected ':'"
  | .expected what found => s!"expected {what}, but found {Text.quotedChar found}"
  | .zeroIndentation => "expected indentation indicator in the range 1-9, but found 0"
  | .unexpectedEnd => "found unexpected end of stream"
  | .unexpectedSeparator => "found unexpected document separator"
  | .unknownEscape c => s!"found unknown escape character {Text.quotedChar c}"
  | .badUri fault => fault.message
  | .mappingValueNotAllowed => "mapping values are not allowed here"
  | .mappingKeyNotAllowed => "mapping keys are not allowed here"
  | .sequenceEntryNotAllowed => "sequence entries are not allowed here"
  | .expectedToken what found => s!"expected {what}, but found {Text.quoted found}"
  | .expectedFlow closing found => s!"expected ',' or {Text.quoted closing}, but got {Text.quoted found}"
  | .duplicateVersion => "found duplicate YAML directive"
  | .incompatibleVersion => "found incompatible YAML document (version 1.* is required)"
  | .duplicateHandle handle => s!"duplicate tag handle {Text.quoted handle}"
  | .undefinedHandle handle => s!"found undefined tag handle {Text.quoted handle}"
  | .undefinedAlias name => s!"found undefined alias {Text.quoted name}"
  | .secondAnchor => "second occurrence"
  | .anotherDocument => "but found another document"
  | .unknownTag tag => s!"could not determine a constructor for the tag {Text.quoted tag}"
  | .expectedKind wanted found => s!"expected a {wanted.text} node, but found {found.text}"
  | .unhashableKey => "found unhashable key"
  | .badMergeValue found => s!"expected a mapping or list of mappings for merging, but found {found.text}"
  | .badMergeItem found => s!"expected a mapping for merging, but found {found.text}"
  | .notASequence found => s!"expected a sequence, but found {found.text}"
  | .notASingleMapping found => s!"expected a mapping of length 1, but found {found.text}"
  | .notASingleItem count => s!"expected a single mapping item, but found {count} items"
  | .badBase64 fault => s!"failed to decode base64 data: {fault.message}"
  | .notAscii codes first last =>
    s!"failed to convert base64 data into ascii: {notAsciiText codes first last}"

/-- A fault at a place of the text, with what was being read and where that began. -/
structure MarkedFault where
  layer : Layer
  activity : Option (Activity × Option Mark)
  problem : Problem
  mark : Mark
  deriving DecidableEq, Repr

namespace MarkedFault

/-- The report: activity, its place unless the fault is at the same line and column, problem and
its place. -/
def message (text : List Char) (fault : MarkedFault) : String :=
  let context :=
    match fault.activity with
    | none => []
    | some (activity, none) => [activity.text]
    | some (activity, some m) =>
      if m.line = fault.mark.line && m.column = fault.mark.column then [activity.text]
      else [activity.text, m.describe text]
  String.intercalate "\n" (context ++ [fault.problem.text, fault.mark.describe text])

end MarkedFault

/-- Why the text of a scalar does not fit its tag. These are no faults of the document text. -/
inductive ContentFault where
  | calendar (fault : CalendarFault)
  | badInteger (base : Nat) (codes : List Nat)
  | integerTooLong (digits : Nat)
  | badDouble (codes : List Nat)
  | powerTooLarge
  | emptyNumber
  | unknownBoolean (codes : List Nat)
  | notATimestamp
  | timestampNotText
  | codePointTooLarge
  | codePointFarTooLarge
  deriving DecidableEq, Repr

namespace ContentFault

def message : ContentFault → String
  | .calendar fault => fault.message
  | .badInteger base codes =>
    let shown := String.ofList ((Text.quotedCodes codes).toList.take 200)
    s!"invalid literal for int() with base {base}: {shown}"
  | .integerTooLong digits =>
    s!"Exceeds the limit ({Number.digitLimit} digits) for integer string conversion: value has {digits} digits; use sys.set_int_max_str_digits() to increase the limit"
  | .badDouble codes => s!"could not convert string to float: {Text.quotedCodes codes}"
  | .powerTooLarge => "int too large to convert to float"
  | .emptyNumber => "string index out of range"
  | .unknownBoolean codes => Text.quotedCodes codes
  | .notATimestamp => "'NoneType' object has no attribute 'groupdict'"
  | .timestampNotText => "expected string or bytes-like object, got 'list'"
  | .codePointTooLarge => "chr() arg not in range(0x110000)"
  | .codePointFarTooLarge => "Python int too large to convert to C int"

end ContentFault

/-- Why a document cannot be loaded. -/
inductive Fault where
  | badCharacter (code position : Nat)
  | marked (fault : MarkedFault)
  | content (fault : ContentFault)
  deriving DecidableEq, Repr

namespace Fault

def message (text : List Char) : Fault → String
  | .badCharacter code position =>
    s!"unacceptable character #x{Text.hexPadded 4 code}: special characters are not allowed\n"
      ++ s!"  in \"<unicode string>\", position {position}"
  | .marked fault => fault.message text
  | .content fault => fault.message

def lexical (activity : Activity) (start : Mark) (problem : Problem) (mark : Mark) : Fault :=
  .marked ⟨.lexical, some (activity, some start), problem, mark⟩

def lexicalAt (problem : Problem) (mark : Mark) : Fault := .marked ⟨.lexical, none, problem, mark⟩

def structural (activity : Activity) (start : Mark) (problem : Problem) (mark : Mark) : Fault :=
  .marked ⟨.structural, some (activity, some start), problem, mark⟩

def structuralAt (problem : Problem) (mark : Mark) : Fault :=
  .marked ⟨.structural, none, problem, mark⟩

end Fault

end ApiScaffold.Yaml
