/-!
Import blocks of generated modules: which names come from which module. Merging unites the names,
and the block is sorted, so its text does not depend on the order of merging.
-/

namespace ApiScaffold

/-- Names by module, in the order in which the modules came up. -/
abbrev Imports := List (String × List String)

namespace Imports

def addNames (names new : List String) : List String :=
  new.foldl (fun all name => if all.contains name then all else all ++ [name]) names

def add (imports : Imports) (module : String) (names : List String) : Imports :=
  if imports.any (·.1 == module) then
    imports.map fun entry => if entry.1 == module then (module, addNames entry.2 names) else entry
  else imports ++ [(module, addNames [] names)]

/-- Adds all entries of the second block to the first. -/
def merge (imports other : Imports) : Imports :=
  other.foldl (fun all entry => all.add entry.1 entry.2) imports

def mergeAll (blocks : List Imports) : Imports := blocks.foldl merge []

def sortTexts (texts : List String) : List String := texts.mergeSort fun a b => !decide (b < a)

/-- The line of one module; a module without names is imported as a whole. -/
def line (module : String) (names : List String) : String :=
  if names.isEmpty then s!"import {module}"
  else s!"from {module} import " ++ String.intercalate ", " (sortTexts names)

/-- The lines of a block, sorted by module. -/
def lines (imports : Imports) : List String :=
  (imports.mergeSort fun a b => !decide (b.1 < a.1)).map fun entry => line entry.1 entry.2

def block (imports : Imports) : String := String.intercalate "\n" imports.lines

end Imports

end ApiScaffold
