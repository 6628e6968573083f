import ApiScaffold.Document.Value
import ApiScaffold.Text.Case
import ApiScaffold.Yaml.Mark

/-!
The tokens of a document text.
-/

namespace ApiScaffold.Yaml

/-- The text of a scalar as code points; an escape can put an unpaired surrogate into it. -/
structure ScalarText where
  codes : List Nat
  deriving DecidableEq, Repr

namespace ScalarText

def ofChars (chars : List Char) : ScalarText := ⟨chars.map Char.toNat⟩

/-- The characters of the text; a surrogate becomes the replacement character. -/
def chars (s : ScalarText) : List Char :=
  s.codes.map fun code => if code.isValidChar then Char.ofNat code else Char.ofNat 0xFFFD

def toString (s : ScalarText) : String := String.ofList s.chars

def without (s : ScalarText) (c : Char) : ScalarText := ⟨s.codes.filter (· != c.toNat)⟩

/-- The text behind its first code points. -/
def drop (s : ScalarText) (count : Nat) : ScalarText := ⟨s.codes.drop count⟩

/-- The text in small letters. -/
def lowered (s : ScalarText) : ScalarText := ⟨Text.lowerCodes s.codes⟩

/-- The parts of the text between a character. -/
def splitAt (s : ScalarText) (c : Char) : List ScalarText :=
  s.codes.foldr (fun code parts =>
    if code = c.toNat then ⟨[]⟩ :: parts
    else
      match parts with
      | part :: rest => ⟨code :: part.codes⟩ :: rest
      | [] => [⟨[code]⟩]) [⟨[]⟩]

def toValue (s : ScalarText) : Value :=
  if s.codes.all fun code => decide code.isValidChar then .text s.toString
  else .brokenText s.codes

end ScalarText

/-- A tag as written: a handle, if any, and what follows it. -/
structure TagSpelling where
  handle : Option String
  suffix : String
  deriving DecidableEq, Repr

/-- What a directive declares. -/
inductive Directive where
  | version (major minor : Nat)
  | handle (handle uri : String)
  | other (name : String)
  deriving DecidableEq, Repr

/-- The kinds of token. -/
inductive TokenKind where
  | streamStart
  | streamEnd
  | directive (content : Directive)
  | documentStart
  | documentEnd
  | blockSequenceStart
  | blockMappingStart
  | blockEnd
  | flowSequenceStart
  | flowMappingStart
  | flowSequenceEnd
  | flowMappingEnd
  | blockEntry
  | flowEntry
  | key
  | value
  | alias (name : String)
  | anchor (name : String)
  | tag (spelling : TagSpelling)
  | scalar (content : ScalarText) (plain : Bool)
  deriving DecidableEq, Repr

def TokenKind.label : TokenKind → String
  | .streamStart => "<stream start>"
  | .streamEnd => "<stream end>"
  | .directive _ => "<directive>"
  | .documentStart => "<document start>"
  | .documentEnd => "<document end>"
  | .blockSequenceStart => "<block sequence start>"
  | .blockMappingStart => "<block mapping start>"
  | .blockEnd => "<block end>"
  | .flowSequenceStart => "["
  | .flowMappingStart => "\x7b"
  | .flowSequenceEnd => "]"
  | .flowMappingEnd => "\x7d"
  | .blockEntry => "-"
  | .flowEntry => ","
  | .key => "?"
  | .value => ":"
  | .alias _ => "<alias>"
  | .anchor _ => "<anchor>"
  | .tag _ => "<tag>"
  | .scalar _ _ => "<scalar>"

/-- A token with the places where it starts and stops. -/
structure Token where
  kind : TokenKind
  start : Mark
  stop : Mark
  deriving DecidableEq, Repr

end ApiScaffold.Yaml
