/-!
Lists of named entries in which every name occurs once and keeps its first place.
-/

namespace ApiScaffold.Keyed

/-- Sets an entry: one of that name keeps its place and gets the new content. -/
def set {α : Type} (entries : List (String × α)) (name : String) (content : α) :
    List (String × α) :=
  if entries.any fun entry => entry.1 == name then
    entries.map fun entry => if entry.1 == name then (name, content) else entry
  else entries ++ [(name, content)]

def setAll {α : Type} (entries new : List (String × α)) : List (String × α) :=
  new.foldl (fun all entry => set all entry.1 entry.2) entries

/-- Gathers entries; of several with one name the last one counts. -/
def ofList {α : Type} (entries : List (String × α)) : List (String × α) := setAll [] entries

end ApiScaffold.Keyed
