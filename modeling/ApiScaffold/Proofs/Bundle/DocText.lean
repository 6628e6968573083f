import Mathlib
import ApiScaffold.Proofs.Bundle.FileMap
import ApiScaffold.Proofs.Router
import ApiScaffold.Proofs.Text.DocText

/-! Where the doc texts of the generated modules end. The name of an API goes into two of them as it is, so
it decides: a doc text ends where it was written exactly if nothing in the name ends it before. Otherwise
what follows in the name is code. -/

namespace ApiScaffold

open Sequence Text

section Run

variable {config : ApiConfig} {options : Bundle.Options} {before after : Sequence} {bundle : Bundle}

namespace Router

def docLabel : String := "Route registration for API: "

/-- The lines of the router module behind its header. -/
def bodyLines (config : ApiConfig) (specs : List EndpointSpec) : List String :=
  [Imports.block [("fastapi", ["APIRouter", "FastAPI"])], "", (handlerImports specs).block, "", opening]
    ++ (routeLines none specs ++ (["", ""] ++ applicationLines config))

theorem moduleText_eq (config : ApiConfig) (specs : List EndpointSpec) :
    moduleText config specs =
      joinLines (Schema.header (docLabel ++ config.name) ++ bodyLines config specs) := by
  unfold moduleText bodyLines
  simp only [List.append_assoc]
  rfl

theorem content_eq (h : Generated config options before bundle after) :
    bundle.router.content = joinLines (Schema.header (docLabel ++ config.name) ++
      bodyLines config (Bundle.endpointSpecs bundle.endpoints)) := by
  rw [h.router, ← moduleText_eq]
  simp only [artifact]

theorem passed_docLabel :
    DocText.passed .elsewhere ('\n' :: docLabel.toList) = some .elsewhere := by decide

end Router

namespace TypeExports

def docLabel : String := "Combined type exports for API: "

/-- The lines of the types module behind its header. -/
def bodyLines (config : ApiConfig) (exports : List (String × List String)) : List String :=
  ["from typing import TypedDict", ""] ++ (exports.map (fun entry => schemaImport entry.1 entry.2) ++
    (["", s!"DATABASE_NAME = {textLiteral config.databaseName}",
      s!"DATABASE_BINDING = {textLiteral config.databaseBinding}", "", "", "class Resources(TypedDict):",
      Schema.indent ++ "\"\"\"Record type of every resource, keyed by resource name.\"\"\"", ""] ++
    (config.resources.map (fun resource => s!"{Schema.indent}{resource.name}: {resource.className}") ++
    (["", ""] ++ Schema.exportLines (fixedExports ++ exports.flatMap (·.2))))))

theorem moduleText_eq (config : ApiConfig) (exports : List (String × List String)) :
    moduleText config exports =
      joinLines (Schema.header (docLabel ++ config.name) ++ bodyLines config exports) := by
  unfold moduleText bodyLines
  simp only [List.append_assoc]
  rfl

theorem content_eq (h : Generated config options before bundle after) :
    bundle.types.content = joinLines (Schema.header (docLabel ++ config.name) ++
      bodyLines config (schemaExports bundle.schemas)) := by
  rw [h.types, ← moduleText_eq]
  simp only [artifact]

theorem passed_docLabel :
    DocText.passed .elsewhere ('\n' :: docLabel.toList) = some .elsewhere := by decide

end TypeExports

open DocText

/-- **Where doc texts end.** The doc texts of the router and of the combined types end where they were
written exactly if nothing in the name of the API ends them. Otherwise the name has three quotes, and in
both modules what stands behind them in the name is code. -/
theorem docTexts_end_iff (h : run (build config options) before = (.ok bundle, after)) :
    (EndsAsWritten (Router.docLabel ++ config.name) bundle.router.content ↔ IsConfined config.name) ∧
      (EndsAsWritten (TypeExports.docLabel ++ config.name) bundle.types.content ↔
        IsConfined config.name) ∧
      (¬IsConfined config.name →
        (∃ front, config.name = front ++ Schema.docQuotes ++ leaked config.name) ∧
        (∃ rest, code? bundle.router.content = some (leaked config.name ++ rest)) ∧
        ∃ rest, code? bundle.types.content = some (leaked config.name ++ rest)) := by
  have hgenerated := (run_build_eq_ok h).2
  have hrouter := exists_eq_written (Router.content_eq hgenerated)
  have htypes := exists_eq_written (TypeExports.content_eq hgenerated)
  refine ⟨endsAsWritten_iff Router.passed_docLabel hrouter,
    endsAsWritten_iff TypeExports.passed_docLabel htypes, fun hopen => ?_⟩
  obtain ⟨hname, hcode⟩ := exists_eq_leaked hopen
  obtain ⟨code, hcontent⟩ := hrouter
  obtain ⟨code', hcontent'⟩ := htypes
  rw [hcontent, hcode Router.passed_docLabel, hcontent', hcode TypeExports.passed_docLabel]
  exact ⟨hname, ⟨_, rfl⟩, _, rfl⟩

/-- The doc texts of a blog end where they were written. -/
theorem docTexts_end_blog :
    ∃ bundle after, run (build Blog.config {}) { stamp := "202401010000" } = (.ok bundle, after) ∧
      EndsAsWritten (Router.docLabel ++ Blog.config.name) bundle.router.content ∧
      EndsAsWritten (TypeExports.docLabel ++ Blog.config.name) bundle.types.content := by
  obtain ⟨bundle, after, hrun⟩ := exists_of_isOk
    (show (run (build Blog.config {}) { stamp := "202401010000" }).1.isOk = true by decide +kernel)
  have hconfined : IsConfined Blog.config.name := by decide
  obtain ⟨hrouter, htypes, -⟩ := docTexts_end_iff hrun
  exact ⟨bundle, after, hrun, hrouter.mpr hconfined, htypes.mpr hconfined⟩

/-! ### A name that brings code with it -/

/-- An API whose name ends the doc texts that it stands in, and opens another text behind its own code. -/
def intrusive : ApiConfig :=
  { Blog.config with
    name := "Blog" ++ Schema.docQuotes ++ ("\nimport os\nos.abort()\n" ++ Schema.docQuotes) }

/-- Such a configuration is accepted and built, and both modules run what the name says. -/
theorem docTexts_run_intrusive :
    intrusive.Accepted ∧ ∃ bundle after,
      run (build intrusive {}) { stamp := "202401010000" } = (.ok bundle, after) ∧
        ¬EndsAsWritten (Router.docLabel ++ intrusive.name) bundle.router.content ∧
        ¬EndsAsWritten (TypeExports.docLabel ++ intrusive.name) bundle.types.content ∧
        (∃ rest, code? bundle.router.content = some ("\nimport os\nos.abort()\n" ++ rest)) ∧
        ∃ rest, code? bundle.types.content = some ("\nimport os\nos.abort()\n" ++ rest) := by
  obtain ⟨bundle, after, hrun⟩ := exists_of_isOk
    (show (run (build intrusive {}) { stamp := "202401010000" }).1.isOk = true by decide +kernel)
  obtain ⟨haccepted, hgenerated⟩ := run_build_eq_ok hrun
  have hopen : ¬IsConfined intrusive.name := by decide
  have hrouter := exists_eq_written (Router.content_eq hgenerated)
  have htypes := exists_eq_written (TypeExports.content_eq hgenerated)
  have hleaked : leaked intrusive.name = "\nimport os\nos.abort()\n" ++ Schema.docQuotes := by
    decide +kernel
  obtain ⟨-, hcode⟩ := exists_eq_leaked hopen
  refine ⟨haccepted, bundle, after, hrun, (endsAsWritten_iff Router.passed_docLabel hrouter).not.mpr hopen,
    (endsAsWritten_iff TypeExports.passed_docLabel htypes).not.mpr hopen, ?_, ?_⟩
  · obtain ⟨code, hcontent⟩ := hrouter
    rw [hcontent, hcode Router.passed_docLabel, hleaked, String.append_assoc]
    exact ⟨_, rfl⟩
  · obtain ⟨code, hcontent⟩ := htypes
    rw [hcontent, hcode TypeExports.passed_docLabel, hleaked, String.append_assoc]
    exact ⟨_, rfl⟩

end Run

end ApiScaffold
