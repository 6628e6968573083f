import ApiScaffold.Literal

/-!
Type annotations of attributes in generated modules.
-/

namespace ApiScaffold.Schema

/-- A type annotation. -/
inductive Annotation where
  | named (name : String)
  | dictionary (key value : String)
  | choice (texts : List String)
  | optional (inner : Annotation)
  deriving DecidableEq, Repr

namespace Annotation

def text : Annotation → String
  | named name => name
  | dictionary key value => s!"Dict[{key}, {value}]"
  | choice texts => "Literal[" ++ String.intercalate ", " (texts.map textLiteral) ++ "]"
  | optional inner => "Optional[" ++ inner.text ++ "]"

def names : Annotation → List String
  | named name => [name]
  | dictionary key value => ["Dict", key, value]
  | choice _ => ["Literal"]
  | optional inner => "Optional" :: inner.names

/-- Whether an annotation admits that nothing is given. -/
def isOptional : Annotation → Bool
  | optional _ => true
  | _ => false

end Annotation

end ApiScaffold.Schema
