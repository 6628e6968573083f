import Mathlib
import ApiScaffold.Bundle
import ApiScaffold.Proofs.Endpoint.Routes
import ApiScaffold.Proofs.Schema.Module

/-! The names that the module of combined types exports, read from its text: each stands on a line of its
own between quotes, behind the line that opens the list. They are the fixed ones and those of the schemas
of every resource. -/

namespace ApiScaffold.TypeExports

open Text

/-! ### Reading -/

/-- The line that opens the list of exported names. -/
def opening : String := "__all__ = ["

/-- The name on a line of the list. -/
def exported? (line : String) : Option String :=
  match partsAt '"' line with
  | [margin, name, ending] => if margin = Schema.indent ∧ ending = "," then some name else none
  | _ => none

/-- The names that the text of a module exports, in order. -/
def exportedNames (text : String) : List String :=
  (behindLast opening (linesOf text)).filterMap exported?

/-- The line of an exported name. -/
def exportLine (name : String) : String := s!"{Schema.indent}{textLiteral name},"

theorem linesOf_exportLine (name : String) : linesOf (exportLine name) = [exportLine name] :=
  partsAt_of_not_mem (not_mem_append (not_mem_append (by decide) (lineFeed_not_mem_textLiteral name))
    (by decide))

section Line

variable {name : String} (h : Naming.IsPlain name)

include h

theorem exported?_exportLine : exported? (exportLine name) = some name := by
  have hparts : partsAt '"' (exportLine name) = [Schema.indent, name, ","] := by
    have hline : exportLine name =
        Schema.indent ++ String.singleton '"' ++ (name ++ String.singleton '"' ++ ",") := by
      have hwhole : exportLine name = Schema.indent ++ textLiteral name ++ "," := rfl
      rw [hwhole, textLiteral_of_isOrdinary h.isOrdinary]
      simp only [String.append_assoc]
    rw [hline, partsAt_append (by decide), partsAt_append (h.not_mem (by decide)),
      partsAt_of_not_mem (by decide)]
  rw [exported?, hparts]
  rfl

theorem exportLine_ne_opening : exportLine name ≠ opening := by
  intro heq
  have hnone : exported? opening = none := by decide
  rw [← heq, exported?_exportLine h] at hnone
  cases hnone

end Line

theorem lines_exportLines (names : List String) :
    (Schema.exportLines names).flatMap linesOf = opening :: (names.map exportLine ++ ["]", ""]) := by
  have hnames : (names.map exportLine).flatMap linesOf = names.map exportLine := by
    rw [List.flatMap_map, List.flatMap_congr fun name _ => linesOf_exportLine name, ← List.map_eq_flatMap]
  have hopening : linesOf opening = [opening] := by decide
  have hclosing : ["]", ""].flatMap linesOf = ["]", ""] := by decide
  have hlines : Schema.exportLines names = opening :: (names.map exportLine ++ ["]", ""]) := rfl
  rw [hlines, List.flatMap_cons, List.flatMap_append, hnames, hopening, hclosing, List.singleton_append]

theorem filterMap_exportLine {names : List String} (h : ∀ name ∈ names, Naming.IsPlain name) :
    (names.map exportLine).filterMap exported? = names := by
  induction names with
  | nil => rfl
  | cons name rest ih =>
      rw [List.forall_mem_cons] at h
      rw [List.map_cons, List.filterMap_cons_some (exported?_exportLine h.1), ih h.2]

/-- The list of names at the end of a text is read back. -/
theorem exportedNames_joinLines (front : List String) {names : List String}
    (h : ∀ name ∈ names, Naming.IsPlain name) :
    exportedNames (joinLines (front ++ Schema.exportLines names)) = names := by
  have hopening : opening ∉ names.map exportLine ++ ["]", ""] := by
    rw [List.mem_append, not_or]
    refine ⟨fun hmem => ?_, by decide⟩
    obtain ⟨name, hname, heq⟩ := List.mem_map.mp hmem
    exact exportLine_ne_opening (h name hname) heq
  have hclosing : ["]", ""].filterMap exported? = [] := by decide
  have hne : front ++ Schema.exportLines names ≠ [] := by simp [Schema.exportLines]
  rw [exportedNames, linesOf_joinLines hne, List.flatMap_append, lines_exportLines,
    behindLast_append hopening, List.filterMap_append, filterMap_exportLine h, hclosing, List.append_nil]

/-! ### The module of a configuration -/

section Config

variable {config : ApiConfig} {schemas : List Artifact}

/-- Each schema brings the four names of its resource. -/
theorem schemaExports_eq (h : Schema.artifacts config = .ok schemas) :
    schemaExports schemas =
      config.resources.map fun resource => (resource.name, (Naming.schemaNames resource.name).toList) := by
  refine Outcome.mapM_filterMap_eq h fun resource _ artifact hartifact => ?_
  rw [(Schema.artifact_made hartifact).2]

theorem isPlain_schemaNames (resource : String) :
    ∀ name ∈ (Naming.schemaNames resource).toList, Naming.IsPlain name := by
  have hbase := Naming.isPlain_className resource
  have hcreate : Naming.IsPlain "Create" := by decide
  have hupdate : Naming.IsPlain "Update" := by decide
  have hquery : Naming.IsPlain "Query" := by decide
  simp only [Naming.SchemaNames.toList, Naming.schemaNames, List.forall_mem_cons]
  exact ⟨hbase, hcreate.append hbase, hupdate.append hbase, hbase.append hquery,
    List.forall_mem_nil _⟩

/-- The module exports the fixed names, then those of the schemas of every resource. -/
theorem exportedNames_artifact (h : Schema.artifacts config = .ok schemas) :
    exportedNames (artifact config schemas).content =
      fixedExports ++ config.resources.flatMap fun resource =>
        (Naming.schemaNames resource.name).toList := by
  have hnames : (schemaExports schemas).flatMap (·.2) =
      config.resources.flatMap fun resource => (Naming.schemaNames resource.name).toList := by
    rw [schemaExports_eq h, List.flatMap_map]
  have hplain : ∀ name ∈ fixedExports ++ (schemaExports schemas).flatMap (·.2), Naming.IsPlain name := by
    rw [hnames, List.forall_mem_append]
    refine ⟨by decide, fun name hname => ?_⟩
    obtain ⟨resource, -, hmem⟩ := List.mem_flatMap.mp hname
    exact isPlain_schemaNames resource.name name hmem
  rw [← hnames]
  simp only [artifact, moduleText]
  exact exportedNames_joinLines _ hplain

end Config

end ApiScaffold.TypeExports
