import ApiScaffold.Text.Lines
import ApiScaffold.Text.Quoted
import ApiScaffold.Text.Utf8

/-!
Configuration files: how their paths are shown, and how their content becomes a text.
-/

namespace ApiScaffold.Source

/-- What a path leads to. -/
inductive Target where
  | nothing
  | directory
  | file (content : List UInt8)

/-- The slashes a path starts with, as far as they count: two stay two, more are one. -/
def rootOf (path : List Char) : String :=
  match (path.takeWhile (· == '/')).length with
  | 0 => ""
  | 2 => "//"
  | _ => "/"

/-- The steps of a path, without empty steps and steps in place. -/
def steps (path : List Char) : List String :=
  ((path.splitOn '/').filter fun step => !step.isEmpty && step != ['.']).map String.ofList

/-- The shortest text of a path; steps back are kept. -/
def pathText (path : String) : String :=
  let text := rootOf path.toList ++ String.intercalate "/" (steps path.toList)
  if text.isEmpty then "." else text

/-- The most bytes that one step of a path may have. -/
def stepLimit : Nat := 255

/-- The most bytes that a path may have. -/
def pathLimit : Nat := 4095

/-- Whether a path can be looked up: it is short enough, and so is its first step forward. -/
def isWithinLimits (path : String) : Bool :=
  let forward := (steps path.toList).dropWhile (· == "..")
  (pathText path).utf8ByteSize ≤ pathLimit
    && forward.head?.all fun step => step.utf8ByteSize ≤ stepLimit

/-- Why a file cannot be read as text. -/
inductive FileFault where
  | nameTooLong (path : String)
  | notFound (path : String)
  | isDirectory (path : String)
  | badText (fault : Text.DecodingFault)
  deriving DecidableEq, Repr

def FileFault.message : FileFault → String
  | nameTooLong path => s!"[Errno 36] File name too long: {Text.quoted path}"
  | notFound path => s!"Configuration file not found: {path}"
  | isDirectory path => s!"[Errno 21] Is a directory: {Text.quoted path}"
  | badText fault => fault.message

/-- The text at a path. Files are in UTF-8, and every kind of line end becomes a line feed. -/
def read (path : String) (target : Target) : Except FileFault String :=
  if !isWithinLimits path then .error (.nameTooLong (pathText path))
  else
    match target with
    | .nothing => .error (.notFound (pathText path))
    | .directory => .error (.isDirectory (pathText path))
    | .file content =>
      match Text.decodeUtf8 content with
      | .error fault => .error (.badText fault)
      | .ok text => .ok (String.ofList (Text.unifyNewlines text.toList))

end ApiScaffold.Source
