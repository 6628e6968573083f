import ApiScaffold.Document.Display

/-!
Issues of a configuration and reports that gather them. An error makes a configuration unusable, a
warning does not.
-/

namespace ApiScaffold

/-- How serious an issue is. -/
inductive Level where
  | error
  | warning
  deriving DecidableEq, Repr

namespace Level

def name : Level → String
  | error => "error"
  | warning => "warning"

def label : Level → String
  | error => "ERROR"
  | warning => "WARNING"

def sign : Level → String
  | error => "❌"
  | warning => "⚠️"

end Level

/-- An issue: a code, words for it, and the values it is about. -/
structure Issue where
  level : Level
  code : String
  message : String
  context : List (String × Value) := []

namespace Issue

def isError (i : Issue) : Bool := i.level == .error

def line (i : Issue) : String := s!"[{i.level.label}] {i.code}: {i.message}"

def reportLines (i : Issue) : List String :=
  s!"  {i.level.sign} [{i.code}] {i.message}"
    :: i.context.map fun (name, v) => s!"       {name}: {v.display}"

end Issue

/-- Issues in the order in which they were found. -/
structure Report where
  issues : List Issue := []

namespace Report

def add (r : Report) (i : Issue) : Report := ⟨r.issues ++ [i]⟩

def merge (r other : Report) : Report := ⟨r.issues ++ other.issues⟩

def errors (r : Report) : List Issue := r.issues.filter Issue.isError

def warnings (r : Report) : List Issue := r.issues.filter fun i => !i.isError

def errorMessages (r : Report) : List String := r.errors.map Issue.message

def hasErrors (r : Report) : Bool := r.issues.any Issue.isError

def hasWarnings (r : Report) : Bool := r.issues.any fun i => !i.isError

def summary (r : Report) : String :=
  s!"Validation: {r.errors.length} error(s), {r.warnings.length} warning(s), {r.issues.length} total item(s)."

def label (r : Report) : String := s!"<ValidationResult {r.summary}>"

def text (r : Report) : String :=
  String.intercalate "\n" (r.summary :: "" :: r.issues.flatMap Issue.reportLines)

end Report

end ApiScaffold
