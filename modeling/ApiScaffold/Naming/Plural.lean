import ApiScaffold.Naming.Words
import ApiScaffold.Text.Case

/-!
Plurals of names. Only the last word decides, and names that look like plurals stay as they are.
-/

namespace ApiScaffold.Naming

/-- Words whose plural is not formed by the rules. -/
def irregularPlurals : List (String × String) := [
  ("person", "people"), ("child", "children"), ("man", "men"), ("woman", "women"),
  ("mouse", "mice"), ("datum", "data"), ("index", "indices"), ("matrix", "matrices"),
  ("vertex", "vertices"), ("axis", "axes"), ("crisis", "crises"), ("analysis", "analyses"),
  ("status", "statuses"), ("address", "addresses")]

def endsWith (s ending : List Char) : Bool := ending.reverse.isPrefixOf s.reverse

/-- Whether a lower-cased text ends in a consonant and `y`. -/
def endsInConsonantY (lower : List Char) : Bool :=
  match lower.reverse with
  | 'y' :: c :: _ => !(['a', 'e', 'i', 'o', 'u'].contains c)
  | _ => false

/-- The plural by rule of a name, given its lower-cased last word. -/
def regularPlural (name lower : List Char) : List Char :=
  let ends (ending : String) : Bool := endsWith lower ending.toList
  if ends "s" && !ends "ss" then name
  else if ends "sh" || ends "ch" || ends "x" || ends "z" || ends "ss" then name ++ ['e', 's']
  else if endsInConsonantY lower then name.dropLast ++ ['i', 'e', 's']
  else if ends "fe" then name.dropLast.dropLast ++ ['v', 'e', 's']
  else if ends "f" then name.dropLast ++ ['v', 'e', 's']
  else name ++ ['s']

def plural (name : String) : String :=
  let chars := name.toList
  if chars.isEmpty then ""
  else
    let lowered := Text.lowerChars chars
    let last := ((words name).getLast?.map String.toList).getD lowered
    let headLength := if endsWith lowered last then chars.length - last.length else 0
    let head := chars.take headLength
    let tail := chars.drop headLength
    match irregularPlurals.lookup (String.ofList last) with
    | some irregular =>
      let capital := (tail.head?.map Text.isCapital).getD false
      String.ofList head ++ (if capital then capitalise irregular else irregular)
    | none => String.ofList (regularPlural chars (Text.lowerChars tail))

end ApiScaffold.Naming
