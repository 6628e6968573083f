import ApiScaffold.Check.Links
import ApiScaffold.Check.Names

/-!
All checks of a configuration, by topic and in order. Each runs whatever the others find.
-/

namespace ApiScaffold

namespace Check

/-- What a check is about. -/
inductive Topic where
  | resourceNames
  | fieldNames
  | choices
  | relations
  | circularRelations
  | indexes
  | bounds
  | defaults
  deriving DecidableEq, Repr

namespace Topic

/-- Every topic, in the order in which the checks run. -/
def all : List Topic :=
  [resourceNames, fieldNames, choices, relations, circularRelations, indexes, bounds, defaults]

def findings (config : ApiConfig) : Topic → Except Fault (List Finding)
  | resourceNames => .ok (Check.resourceNames config)
  | fieldNames => .ok (Check.fieldNames config)
  | choices => .ok (Check.choices config)
  | relations => .ok (Check.relations config)
  | circularRelations => .ok (Check.circularRelations config)
  | indexes => .ok (Check.indexes config)
  | bounds => Check.bounds config
  | defaults => Check.defaults config

end Topic

def findingsOn (topics : List Topic) (config : ApiConfig) : Except Fault (List Finding) :=
  (topics.mapM (Topic.findings config)).map List.flatten

def report (findings : List Finding) : Report := ⟨findings.map Finding.issue⟩

end Check

namespace ApiConfig

def findings (config : ApiConfig) : Except Check.Fault (List Check.Finding) :=
  Check.findingsOn Check.Topic.all config

def report (config : ApiConfig) : Except Check.Fault Report := config.findings.map Check.report

end ApiConfig

end ApiScaffold
