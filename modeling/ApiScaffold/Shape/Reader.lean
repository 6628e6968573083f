import ApiScaffold.Document.Display
import ApiScaffold.Shape.Problem

/-!
Readers of mappings with named parts. Parts are read in the order in which they are declared; after
them come the names that no part has.
-/

namespace ApiScaffold.Shape

abbrev Entries := List (Value × Value)

/-- Reads some parts of a mapping, each under the first of its names that is there. -/
structure Reader (α : Type) where
  parts : List (List String)
  read : Entries → Checked α

/-- The first of some names that is there, and what stands under it. -/
def given? (entries : Entries) (names : List String) : Option (String × Value) :=
  names.findSome? fun name => (Value.entryNamed? entries name).map (name, ·)

namespace Reader

instance : Applicative Reader where
  pure a := ⟨[], fun _ => .sound a⟩
  seq f a := ⟨f.parts ++ (a ()).parts, fun entries => (f.read entries).apply ((a ()).read entries)⟩

def required {α : Type} (name : String) (read : Value → Checked α) : Reader α where
  parts := [[name]]
  read entries :=
    match given? entries [name] with
    | some (name, v) => (read v).under name
    | none => (Checked.reject .missing).under name

/-- A part that may be left out. -/
def optional {α : Type} (names : List String) (missing : α) (read : Value → Checked α) : Reader α where
  parts := [names]
  read entries :=
    match given? entries names with
    | some (name, v) => (read v).under name
    | none => .sound missing

/-- How a key that is no text is shown in a path. -/
def keyStep : Value → String
  | .bool b => if b then "1" else "0"
  | .number (.int i) => if hasIntegerText i then integerText i else "<unprintable int object>"
  | v => v.inspect

/-- The problem of a key, given the names that were read. -/
def keyProblem? (used : List String) : Value → Option Problem
  | .text name => if used.contains name then none else some ⟨[name], .unknownName⟩
  | key => some ⟨[keyStep key], .nameNotText⟩

/-- The problems of keys that no part has read. -/
def leftovers (parts : List (List String)) (entries : Entries) : Checked Unit :=
  let used := parts.filterMap fun names => (given? entries names).map (·.1)
  match entries.filterMap fun entry => keyProblem? used entry.1 with
  | [] => .sound ()
  | problems => .unsound problems

/-- Whether a key is text with unpaired surrogates; such a mapping is not looked into. -/
def isBrokenKey : Value → Bool
  | .brokenText _ => true
  | _ => false

/-- Reads a mapping that has the parts of a reader and no others. -/
def object {α : Type} (model : String) (reader : Reader α) (v : Value) : Checked α :=
  match v with
  | .mapping entries =>
    if entries.any fun entry => isBrokenKey entry.1 then .reject .notUnicode
    else (fun a _ => a) <$> reader.read entries <*> leftovers reader.parts entries
  | _ => .reject (.notAMapping model)

end Reader

end ApiScaffold.Shape
