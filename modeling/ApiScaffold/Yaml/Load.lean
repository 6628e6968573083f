import ApiScaffold.Yaml.Draft
import ApiScaffold.Yaml.Node.Grammar

/-!
Loading of documents: from a text to the value it denotes.
-/

namespace ApiScaffold.Yaml

/-- Whether a code point may occur in a document text. -/
def isAcceptable (code : Nat) : Bool :=
  code == 0x09 || code == 0x0A || code == 0x0D || (0x20 ≤ code && code ≤ 0x7E) || code == 0x85
    || (0xA0 ≤ code && code ≤ 0xD7FF) || (0xE000 ≤ code && code ≤ 0xFFFD) || 0x10000 ≤ code

/-- The fault of the first code point that may not occur in a document text. -/
def unacceptable? (codes : List Nat) : Option Fault :=
  match codes.dropWhile isAcceptable with
  | [] => none
  | code :: rest => some (.badCharacter code (codes.length - rest.length - 1))

/-- Loads the document of a text. An empty text denotes null. -/
def load (text : String) : Except Fault Value := do
  let chars := text.toList
  match unacceptable? (chars.map Char.toNat) with
  | some fault => throw fault
  | none =>
    match ← (tokenize chars).toGraph? with
    | none => return .null
    | some (root, graph) => graph.load root

end ApiScaffold.Yaml
