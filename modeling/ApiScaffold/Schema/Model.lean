import ApiScaffold.Schema.FieldMapping
import ApiScaffold.Text.Quoted

/-!
Models of generated modules: classes with annotated attributes, and their text.
-/

namespace ApiScaffold.Schema

/-- What an attribute is set to: nothing, a plain default, or a field with arguments. -/
inductive Setting where
  | unset
  | plain (default : Scalar)
  | field (default : Option Scalar) (constraints : List Constraint) (description : Option String)
  deriving DecidableEq, Repr

/-- An attribute of a model. -/
structure Attribute where
  name : String
  typing : Annotation
  setting : Setting := .unset
  deriving DecidableEq, Repr

/-- The arguments of a field in order: default, constraints, description. -/
def settingArguments (default : Option Scalar) (constraints : List Constraint)
    (description : Option String) : Except LiteralFault (List String) := do
  let first ← default.toList.mapM (argumentText "default")
  let middle ← constraintArguments constraints
  return first ++ middle ++ description.toList.map fun d => "description=" ++ textLiteral d

/-- The text of a setting, from the sign of equality on. -/
def Setting.text : Setting → Except LiteralFault String
  | .unset => .ok ""
  | .plain default => default.literal.map (" = " ++ ·)
  | .field default constraints description =>
    (settingArguments default constraints description).map fun arguments =>
      " = Field(" ++ String.intercalate ", " arguments ++ ")"

/-- The indentation of generated code. -/
def indent : String := "    "

def Attribute.line (a : Attribute) : Except LiteralFault String :=
  a.setting.text.map fun setting => s!"{indent}{a.name}: {a.typing.text}{setting}"

/-- A model: a class with a doc line, settings and attributes. -/
structure Model where
  name : String
  doc : String
  settings : Option String
  attributes : List Attribute
  deriving DecidableEq, Repr

/-- The lines of a model; one without settings and attributes has a line that does nothing. -/
def Model.lines (model : Model) : Except LiteralFault (List String) := do
  let attributes ← model.attributes.mapM Attribute.line
  let settings := match model.settings with
    | some settings => [s!"{indent}model_config = ConfigDict({settings})", ""]
    | none => []
  let body := if attributes.isEmpty then [indent ++ "pass"] else attributes
  return [s!"class {model.name}(BaseModel):", indent ++ "\"\"\"" ++ model.doc ++ "\"\"\"", ""]
    ++ settings ++ body

end ApiScaffold.Schema
