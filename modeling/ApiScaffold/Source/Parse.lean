import ApiScaffold.Check.Basic
import ApiScaffold.Digest.Sha256
import ApiScaffold.Shape.Config
import ApiScaffold.Yaml.Load

/-!
Parsing of configuration texts in three stages: syntax, shape, meaning. Problems of each stage are
issues of a report, and only a text without errors gives a usable configuration.
-/

namespace ApiScaffold.Source

/-- The issue of a text that is no document. -/
def syntaxIssue (message : String) : Issue :=
  ⟨.error, "SYNTAX_ERROR", "YAML parsing error: " ++ message, []⟩

/-- The issue of a document that is no mapping. -/
def rootIssue (v : Value) : Issue :=
  ⟨.error, "INVALID_ROOT", "Invalid YAML: Content must be an object",
    [("received", .text v.kindName)]⟩

def shapeIssue (problem : Shape.Problem) : Issue :=
  ⟨.error, "INVALID_SHAPE", problem.message,
    [("path", .text problem.pathText), ("type", .text problem.defect.code)]⟩

/-- The configuration that a document describes, or what is wrong with its shape. -/
def configOf (v : Value) : Except Report ApiConfig :=
  match v with
  | .mapping _ =>
    match Shape.config v with
    | .sound config => .ok config
    | .unsound problems => .error ⟨problems.map shapeIssue⟩
  | v => .error ⟨[rootIssue v]⟩

/-- The outcome of parsing: the configuration, even if it has errors of meaning, the report, and the
checksum of the text. -/
structure Parsed where
  config : Option ApiConfig
  report : Report
  checksum : String

/-- Why parsing comes to no outcome. -/
inductive ParseFault where
  | content (fault : Yaml.ContentFault)
  | check (fault : Check.Fault)
  deriving DecidableEq, Repr

def parsedDocument (checksum : String) (v : Value) : Except ParseFault Parsed :=
  match configOf v with
  | .error report => .ok ⟨none, report, checksum⟩
  | .ok config =>
    match config.report with
    | .error fault => .error (.check fault)
    | .ok report => .ok ⟨some config, report, checksum⟩

def parse (text : String) : Except ParseFault Parsed :=
  let checksum := Digest.checksum text
  match Yaml.load text with
  | .error (.content fault) => .error (.content fault)
  | .error fault => .ok ⟨none, ⟨[syntaxIssue (fault.message text.toList)]⟩, checksum⟩
  | .ok v => parsedDocument checksum v

/-- Why there is no usable configuration. -/
inductive Refusal where
  | badSyntax (message : String)
  | invalid (messages : List String)
  deriving DecidableEq, Repr

/-- The words for errors of a configuration: how many there are, and the first three. -/
def invalidMessage (messages : List String) : String :=
  let preview := String.intercalate "; " (messages.take 3)
  let more := if 3 < messages.length then s!" (+{messages.length - 3} more)" else ""
  s!"Configuration has {messages.length} error(s): {preview}{more}"

def Refusal.message : Refusal → String
  | badSyntax message => message
  | invalid messages => invalidMessage messages

namespace Parsed

/-- Whether the configuration can be used. -/
def isValid (parsed : Parsed) : Bool := parsed.config.isSome && !parsed.report.hasErrors

/-- The configuration, if it can be used. -/
def usable (parsed : Parsed) : Except Refusal ApiConfig :=
  match parsed.config, parsed.report.hasErrors with
  | some config, false => .ok config
  | _, _ =>
    match parsed.report.errors.find? fun issue => issue.code == "SYNTAX_ERROR" with
    | some issue => .error (.badSyntax issue.message)
    | none => .error (.invalid parsed.report.errorMessages)

end Parsed

end ApiScaffold.Source
