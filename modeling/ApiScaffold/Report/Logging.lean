import ApiScaffold.Number.Basic

/-!
What a host sets up for log output: the level for a verbosity, and the shape of a line.
-/

namespace ApiScaffold.Logging

def loggerName : String := "crudgen"

/-- The level for a verbosity: each step of it lets one more level through. -/
def levelName (verbosity : Number) : String :=
  if verbosity.atLeast 2 then "DEBUG" else if verbosity.atLeast 1 then "INFO" else "WARNING"

def lineFormat : String := "%(asctime)s │ %(levelname)-8s │ %(name)s │ %(message)s"

/-- The shape of a time of day. -/
def timeFormat : String := "%H:%M:%S"

/-- A timer that has not run yet. -/
def idleTimer (label : String) : String := s!"<Timer {label}: 0.0000s>"

end ApiScaffold.Logging
