import Mathlib
import ApiScaffold.Proofs.Bundle.DocText
import ApiScaffold.Proofs.Endpoint.Module
import ApiScaffold.Proofs.TypeExports

/-! What it means that an import finds what it names, and what the modules of a run define: a handler in the
module of every endpoint, four models in the module of every resource. -/

namespace ApiScaffold

open Sequence Text Imports

/-! ### Links -/

/-- Modules that others import from. -/
inductive Origin where
  | endpoints
  | schemas
  deriving DecidableEq, Repr

/-- What a line takes from a module: the path of the module, and names. -/
structure Link where
  path : String
  names : List String
  deriving DecidableEq, Repr

namespace Origin

def folder : Origin → String
  | endpoints => "endpoints"
  | schemas => "schemas"

/-- The line that defines a name in a module: that of a handler or of a model. -/
def definition (origin : Origin) (name : String) : String :=
  match origin with
  | endpoints => s!"async def {name}("
  | schemas => s!"class {name}(BaseModel):"

def pathOf (origin : Origin) (module : String) : String := origin.folder ++ "/" ++ module ++ ".py"

/-- The link that a line makes to a module of an origin, seen from a place with that many dots to the root. -/
def link? (origin : Origin) (dots line : String) : Option Link :=
  let stem := dots ++ origin.folder ++ "."
  (read? line).bind fun found =>
    if stem.toList <+: found.1.toList then
      some ⟨origin.pathOf (String.ofList (found.1.toList.drop stem.toList.length)), found.2⟩
    else none

end Origin

namespace Bundle

/-- There is a module at the path of a link; if no two artifacts share a path, its code defines all names. -/
def Provides (bundle : Bundle) (origin : Origin) (link : Link) : Prop :=
  link.path ∈ bundle.fileMap.map (·.1) ∧
    ((bundle.artifacts.map Artifact.place).Nodup →
      ∃ content code, bundle.fileMap.lookup link.path = some content ∧
        DocText.code? content = some code ∧
        ∀ name ∈ link.names, origin.definition name ∈ linesOf code)

/-- If a line links to a module of the origin, what it takes is there. -/
def LineLinks (bundle : Bundle) (origin : Origin) (dots line : String) : Prop :=
  ∀ link ∈ origin.link? dots line, bundle.Provides origin link

/-- Every line of the code of a module that links to a module of the origin finds what it takes. -/
def CodeLinks (bundle : Bundle) (origin : Origin) (dots content : String) : Prop :=
  ∃ code, DocText.code? content = some code ∧ ∀ line ∈ linesOf code, bundle.LineLinks origin dots line

end Bundle

/-! ### Lines that link -/

section Lines

variable {bundle : Bundle} {origin : Origin} {dots : String} {entry : String × List String}

theorem Bundle.lineLinks_of_read? {line : String} (h : read? line = none) :
    bundle.LineLinks origin dots line := by
  intro link hlink
  rw [Origin.link?, h] at hlink
  cases hlink

theorem Bundle.lineLinks_of_isIdle {text : String} (h : IsIdle text) :
    ∀ line ∈ linesOf text, bundle.LineLinks origin dots line := fun line hline =>
  lineLinks_of_read? (h.read? line hline)

/-- A line that imports from another module makes no link. -/
theorem Bundle.lineLinks_of_not_prefix {line : String} (h : read? line = some entry)
    (hother : ¬(dots ++ origin.folder ++ ".").toList <+: entry.1.toList) :
    bundle.LineLinks origin dots line := by
  intro link hlink
  rw [Origin.link?, h, Option.bind_some, if_neg hother] at hlink
  cases hlink

/-- A line that imports from a module that is no part of the package makes no link. -/
theorem Bundle.lineLinks_of_head? {line : String} (hdots : dots.toList.head? = some '.')
    (h : read? line = some entry) (hpackage : entry.1.toList.head? ≠ some '.') :
    bundle.LineLinks origin dots line := by
  refine lineLinks_of_not_prefix h fun hprefix => hpackage ?_
  obtain ⟨rest, hrest⟩ := hprefix
  rw [← hrest]
  simp only [String.toList_append, List.head?_append, hdots, Option.some_or]

/-- The lines of a header make no link. -/
theorem Bundle.lineLinks_headerLines (hdots : dots.toList.head? = some '.') :
    ∀ line ∈ DocText.headerLines, bundle.LineLinks origin dots line := by
  have hannotations : read? "from __future__ import annotations" =
      some ("__future__", ["annotations"]) := by decide
  have hgenerated : read? Schema.generatedLine = none := read?_of_head? (by decide)
  have hquotes : read? Schema.docQuotes = none := by decide
  rw [DocText.headerLines]
  simp only [List.forall_mem_cons]
  exact ⟨lineLinks_of_read? (by decide), lineLinks_of_head? hdots hannotations (by decide),
    lineLinks_of_read? hgenerated, lineLinks_of_read? hquotes, List.forall_mem_nil _⟩

/-- An entry of a module of the origin links to the path of this module. -/
theorem Origin.link?_line (h : IsLegible entry) {module : String}
    (hmodule : entry.1 = dots ++ origin.folder ++ "." ++ module) :
    origin.link? dots (Imports.line entry.1 entry.2) =
      some ⟨origin.pathOf module, sortTexts entry.2⟩ := by
  have hchars : entry.1.toList = (dots ++ origin.folder ++ ".").toList ++ module.toList := by
    rw [hmodule, String.toList_append]
  rw [link?, read?_line h, Option.bind_some, hchars, if_pos (List.prefix_append _ _), List.drop_left,
    String.ofList_toList]

example : Origin.schemas.link? ".." "from ..schemas.post import CreatePost, Post" =
    some ⟨"schemas/post.py", ["CreatePost", "Post"]⟩ := by decide +kernel

theorem Bundle.lineLinks_of_prefix (h : IsLegible entry) {module : String}
    (hmodule : entry.1 = dots ++ origin.folder ++ "." ++ module)
    (hprovides : ∀ names ⊆ entry.2, bundle.Provides origin ⟨origin.pathOf module, names⟩) :
    bundle.LineLinks origin dots (Imports.line entry.1 entry.2) := by
  intro link hlink
  rw [Origin.link?_line h hmodule] at hlink
  obtain rfl := Option.some.inj hlink
  exact hprovides _ fun name hname => mem_sortTexts.mp hname

/-- An artifact provides what its code defines. -/
theorem Bundle.provides_of_mem {artifact : Artifact} (h : artifact ∈ bundle.artifacts) {link : Link}
    (hplace : artifact.place = link.path) {code : String}
    (hcode : DocText.code? artifact.content = some code)
    (hnames : ∀ name ∈ link.names, origin.definition name ∈ linesOf code) :
    bundle.Provides origin link := by
  have hentry : (link.path, artifact.content) ∈
      bundle.artifacts.map fun artifact => (artifact.place, artifact.content) :=
    List.mem_map.mpr ⟨artifact, h, by rw [hplace]⟩
  constructor
  · rw [fileMap, Keyed.mem_names_ofList]
    exact List.mem_map.mpr ⟨_, hentry, rfl⟩
  · intro hnodup
    have hplaces : ((bundle.artifacts.map fun artifact => (artifact.place, artifact.content)).map
        (·.1)).Nodup := by
      rw [List.map_map]
      exact hnodup
    refine ⟨artifact.content, code, ?_, hcode, hnames⟩
    rw [fileMap, Keyed.ofList_of_nodup hplaces]
    exact lookup_of_mem hplaces hentry

end Lines

/-! ### What modules define -/

section Modules

variable {resource : ResourceSpec}

theorem Schema.definition_mem_lines {model : Model} {lines : List String} (h : model.lines = .ok lines) :
    Origin.schemas.definition model.name ∈ lines := by
  obtain ⟨attributes, -, hlines⟩ := Outcome.bind_eq_ok.mp h
  rw [← Except.ok.inj hlines, List.append_assoc]
  exact List.mem_append_left _ List.mem_cons_self

/-- The module of a resource defines its four models. -/
theorem Schema.exists_code {made : Artifact} (h : artifact resource = .ok made) :
    ∃ code, DocText.code? made.content = some code ∧
      ∀ name ∈ (Naming.schemaNames resource.name).toList,
        Origin.schemas.definition name ∈ linesOf code := by
  obtain ⟨mappings, -, h⟩ := Outcome.bind_eq_ok.mp h
  obtain ⟨content, hcontent, h⟩ := Outcome.bind_eq_ok.mp h
  have hmade : made.content = content := by
    unfold named at h
    split at h
    · cases h
    · rw [← Except.ok.inj h]
  obtain ⟨groups, hgroups, hjoined⟩ := Outcome.bind_eq_ok.mp (Outcome.mapError_eq_ok.mp hcontent)
  have hlabel : DocText.passed .elsewhere ('\n' :: "Validation schemas for resource: ".toList) =
      some .elsewhere := by decide
  have hfound := DocText.exists_code hlabel resource.name
    ([(moduleImports resource mappings).block, "", ""] ++ spaced groups ++
      exportLines (Naming.schemaNames resource.name).toList)
  obtain ⟨code, extra, hcode, -, hlines⟩ := hfound
  refine ⟨code, ?_, fun name hname => (hlines _).mpr (Or.inr (Or.inr ?_))⟩
  · rw [hmade, ← Except.ok.inj hjoined, ← hcode]
    simp only [List.append_assoc]
    rfl
  · have hplain := TypeExports.isPlain_schemaNames resource.name name hname
    have hmodels : (models resource mappings).map Model.name = (Naming.schemaNames resource.name).toList := rfl
    rw [← hmodels] at hname
    obtain ⟨model, hmodel, rfl⟩ := List.mem_map.mp hname
    obtain ⟨lines, hlines, hok⟩ := Outcome.exists_of_mem_mapM hgroups hmodel
    refine mem_flatMap_linesOf (List.mem_append_left _ (List.mem_append_right _ ?_)) ?_
    · exact List.mem_flatMap.mpr ⟨lines, hlines, List.mem_append_left _ (definition_mem_lines hok)⟩
    · exact not_mem_append (not_mem_append (by decide) (hplain.not_mem (by decide))) (by decide)

namespace Endpoint

/-- The code of the module of an endpoint. -/
theorem exists_code (resource : ResourceSpec) (operation : Operation) :
    ∃ code extra, DocText.code? (artifact resource operation).content = some code ∧
      extra ⊆ DocText.headerLines ∧ ∀ line, line ∈ linesOf code ↔ line = "" ∨ line ∈ extra ∨
        line ∈ (bodyLines (describe resource operation)
          (resource.queryFilters.map FieldSpec.name)).flatMap linesOf := by
  have hlabel : DocText.passed .elsewhere ('\n' :: "".toList) = some .elsewhere := by decide
  have hfound := DocText.exists_code hlabel (title (describe resource operation))
    (bodyLines (describe resource operation) (resource.queryFilters.map FieldSpec.name))
  have hempty : linesOf "" = [""] := by decide
  have hcontent : (artifact resource operation).content =
      moduleText (describe resource operation) (resource.queryFilters.map FieldSpec.name) := by
    simp only [artifact]
  rw [String.empty_append, ← moduleText_eq, DocText.leaked_of_isConfined (isConfined_title operation),
    hempty] at hfound
  simp only [List.mem_singleton] at hfound
  rw [hcontent]
  exact hfound

/-- The module of an endpoint defines its handler. -/
theorem exists_definition (resource : ResourceSpec) (operation : Operation) :
    ∃ code, DocText.code? (artifact resource operation).content = some code ∧
      Origin.endpoints.definition (handlerOf resource.name operation) ∈ linesOf code := by
  obtain ⟨code, extra, hcode, -, hlines⟩ := exists_code resource operation
  exact ⟨code, hcode, (hlines _).mpr (Or.inr (Or.inr (definition_mem_bodyLines operation resource _)))⟩

end Endpoint

end Modules

/-! ### Modules of a run -/

section Provided

variable {config : ApiConfig} {options : Bundle.Options} {before after : Sequence} {bundle : Bundle}
  {resource : ResourceSpec} {names : List String}

/-- The handler of every operation on a resource can be imported. -/
theorem Generated.provides_handler (h : Generated config options before bundle after)
    (hresource : resource ∈ config.resources) (operation : Operation)
    (hnames : ∀ name ∈ names, name = Endpoint.handlerOf resource.name operation) :
    bundle.Provides .endpoints
      ⟨Origin.endpoints.pathOf (Endpoint.handlerOf resource.name operation), names⟩ := by
  have hmade : Endpoint.artifact resource operation ∈ bundle.endpoints := by
    rw [h.endpoints]
    exact List.mem_flatMap.mpr ⟨resource, hresource, List.mem_map_of_mem (Operation.mem_all operation)⟩
  have hmem : Endpoint.artifact resource operation ∈ bundle.artifacts := by
    simp only [Bundle.artifacts, List.mem_append]
    exact Or.inl (Or.inl (Or.inr hmade))
  obtain ⟨code, hcode, hdefinition⟩ := Endpoint.exists_definition resource operation
  refine Bundle.provides_of_mem hmem (Endpoint.artifact_staysAt resource operation).place hcode ?_
  intro name hname
  rw [hnames name hname]
  exact hdefinition

/-- The models of every resource can be imported. -/
theorem Generated.provides_models (h : Generated config options before bundle after)
    (hresource : resource ∈ config.resources)
    (hnames : names ⊆ (Naming.schemaNames resource.name).toList) :
    bundle.Provides .schemas ⟨Origin.schemas.pathOf (Naming.moduleName resource.name), names⟩ := by
  obtain ⟨made, hmade, hok⟩ := Outcome.exists_of_mem_mapM h.schemas hresource
  have hmem : made ∈ bundle.artifacts := by
    simp only [Bundle.artifacts, List.mem_append]
    exact Or.inl (Or.inl (Or.inl (Or.inl hmade)))
  obtain ⟨code, hcode, hdefinitions⟩ := Schema.exists_code hok
  exact Bundle.provides_of_mem hmem (Schema.artifact_eq_ok hok).place hcode
    fun name hname => hdefinitions name (hnames hname)

end Provided

end ApiScaffold
