import Mathlib
import ApiScaffold.Proofs.Bundle.Links

/-! Whether what generated modules import is there. Every import that is generated names a module of the run
that defines all names which are taken from it. Only the name of the API can bring imports of nothing, if it
ends the doc text that it stands in. -/

namespace ApiScaffold

open Sequence Text Imports

/-! ### The router -/

namespace Router

section Lines

variable {specs : List EndpointSpec}

/-- The lines of routes import nothing. -/
theorem isIdle_routeLines {current : Option String} (hlegible : ∀ spec ∈ specs, IsLegible spec)
    (hnames : ∀ spec ∈ specs, Naming.isIdentifier spec.resource = true) :
    ∀ line ∈ routeLines current specs, Imports.IsIdle line := by
  induction specs generalizing current with
  | nil => exact List.forall_mem_nil _
  | cons spec rest ih =>
      rw [List.forall_mem_cons] at hlegible hnames
      have hroute : Imports.IsIdle (routeLine spec) := by
        refine isIdle_of_not_mem (lineFeed_not_mem_routeLine hlegible.1) ?_
        obtain ⟨tail, hline⟩ := exists_routeLine spec
        simp only [hline, String.append_assoc, String.toList_append]
        exact nofun
      have hresource := goesOnIdle_identifier_append hnames.1 "" (by decide) (by decide)
      rw [String.append_empty] at hresource
      have hcomment : Imports.IsIdle s!"# {spec.resource}" :=
        hresource.isIdle_append "# " (by decide) rfl (by decide)
      rw [routeLines, List.forall_mem_append, List.forall_mem_cons]
      refine ⟨?_, hroute, ih hlegible.2 hnames.2⟩
      split
      · exact List.forall_mem_nil _
      · rw [List.forall_mem_cons, List.forall_mem_singleton]
        exact ⟨by decide, hcomment⟩

theorem isIdle_applicationLines (config : ApiConfig) :
    ∀ line ∈ applicationLines config, Imports.IsIdle line := by
  intro line hline
  obtain ⟨hfeed, hbegins⟩ := isApplicationLine_of_mem config line hline
  refine isIdle_of_not_mem hfeed fun hhead => ?_
  rw [hhead] at hbegins
  exact absurd hbegins (by decide)

end Lines

/-- Each entry of the imports names one handler, by its module. -/
theorem exists_of_mem_handlerImports {specs : List EndpointSpec}
    (hspecs : ∀ spec ∈ specs, spec.moduleName = spec.handlerName) {entry : String × List String}
    (h : entry ∈ handlerImports specs) :
    entry.2 ≠ [] ∧ ∃ spec ∈ specs, entry.1 = ".endpoints." ++ spec.handlerName ∧
      ∀ name ∈ entry.2, name = spec.handlerName := by
  have hsource : ∀ entry ∈ specs.map fun spec => (".endpoints." ++ spec.moduleName, [spec.handlerName]),
      entry.2 ≠ [] := List.forall_mem_map.mpr fun _ _ => List.cons_ne_nil _ _
  obtain ⟨hne, hnames⟩ := comesFrom_mergeAll hsource entry h
  have hmodule : ∀ name ∈ entry.2, ∃ spec ∈ specs, entry.1 = ".endpoints." ++ spec.handlerName ∧
      name = spec.handlerName := by
    intro name hname
    obtain ⟨other, hother, hmodule, hmem⟩ := hnames name hname
    obtain ⟨spec, hspec, rfl⟩ := List.mem_map.mp hother
    exact ⟨spec, hspec, by rw [← hmodule, hspecs spec hspec], List.mem_singleton.mp hmem⟩
  obtain ⟨name, hname⟩ := List.exists_mem_of_ne_nil _ hne
  obtain ⟨spec, hspec, hentry, -⟩ := hmodule name hname
  refine ⟨hne, spec, hspec, hentry, fun other hother => ?_⟩
  obtain ⟨spec', -, hentry', rfl⟩ := hmodule other hother
  exact (String.append_right_inj _).mp (hentry'.symm.trans hentry)

section Run

variable {config : ApiConfig} {options : Bundle.Options} {before after : Sequence} {bundle : Bundle}
  (h : Generated config options before bundle after)

include h

theorem lineLinks_handlerImports :
    ∀ line ∈ linesOf (handlerImports (Bundle.endpointSpecs bundle.endpoints)).block,
      bundle.LineLinks .endpoints "." line := by
  have hspecs : ∀ spec ∈ Bundle.endpointSpecs bundle.endpoints, ∃ resource ∈ config.resources,
      ∃ operation, spec = Endpoint.specOf resource operation := by
    rw [h.endpoints]
    exact fun spec => Endpoint.exists_specOf_of_mem
  have hmodules : ∀ spec ∈ Bundle.endpointSpecs bundle.endpoints, spec.moduleName = spec.handlerName := by
    intro spec hspec
    obtain ⟨resource, -, operation, rfl⟩ := hspecs spec hspec
    rfl
  have hentries : ∀ entry ∈ handlerImports (Bundle.endpointSpecs bundle.endpoints),
      Imports.IsLegible entry ∧ bundle.LineLinks .endpoints "." (Imports.line entry.1 entry.2) := by
    intro entry hentry
    obtain ⟨hne, spec, hspec, hmodule, hnames⟩ := exists_of_mem_handlerImports hmodules hentry
    obtain ⟨resource, hresource, operation, rfl⟩ := hspecs spec hspec
    obtain ⟨module, names⟩ := entry
    obtain rfl : module = _ := hmodule
    have hplain := Endpoint.isPlain_handlerOf resource.name operation
    have hlegible := isLegible_append (show ' ' ∉ ".endpoints.".toList by decide) (by decide) hplain hne
      fun name hname => (hnames name hname).symm ▸ hplain
    exact ⟨hlegible, Bundle.lineLinks_of_prefix hlegible rfl fun names hsub =>
      h.provides_handler hresource operation fun name hname => hnames name (hsub hname)⟩
  intro line hline
  have hlegible := fun entry hentry => (hentries entry hentry).1
  rcases mem_linesOf_block hlegible hline with rfl | ⟨entry, hentry, rfl⟩
  · exact Bundle.lineLinks_of_read? (by decide)
  · exact (hentries entry hentry).2

/-- What the router imports is there. -/
theorem lineLinks_bodyLines (haccepted : config.Accepted) :
    ∀ line ∈ (bodyLines config (Bundle.endpointSpecs bundle.endpoints)).flatMap linesOf,
      bundle.LineLinks .endpoints "." line := by
  have hpackages : ∀ line ∈ linesOf (Imports.block [("fastapi", ["APIRouter", "FastAPI"])]),
      bundle.LineLinks .endpoints "." line := by
    intro line hline
    have hlegible : ∀ entry ∈ ([("fastapi", ["APIRouter", "FastAPI"])] : Imports),
        Imports.IsLegible entry := by decide
    rcases mem_linesOf_block hlegible hline with rfl | ⟨entry, hentry, rfl⟩
    · exact Bundle.lineLinks_of_read? (by decide)
    · refine Bundle.lineLinks_of_head? rfl (Imports.read?_line (hlegible entry hentry)) ?_
      rw [List.mem_singleton.mp hentry]
      decide
  have hidle : ∀ {whole}, Imports.IsIdle whole → ∀ line ∈ linesOf whole,
      bundle.LineLinks .endpoints "." line := Bundle.lineLinks_of_isIdle
  have hroutes : ∀ whole ∈ routeLines none (Bundle.endpointSpecs bundle.endpoints),
      Imports.IsIdle whole := by
    rw [h.endpoints]
    refine isIdle_routeLines (isLegible_of_mem_endpointSpecs config) fun spec hspec => ?_
    obtain ⟨resource, hresource, operation, rfl⟩ := Endpoint.exists_specOf_of_mem hspec
    exact haccepted.admitted.identifiers _ (List.mem_map_of_mem hresource)
  unfold bodyLines
  simp only [List.forall_mem_flatMap, List.forall_mem_append, List.forall_mem_cons]
  exact ⟨⟨hpackages, hidle (by decide), lineLinks_handlerImports h, hidle (by decide), hidle (by decide),
    List.forall_mem_nil _⟩, fun whole hwhole => hidle (hroutes whole hwhole),
    ⟨hidle (by decide), hidle (by decide), List.forall_mem_nil _⟩,
    fun whole hwhole => hidle (isIdle_applicationLines config whole hwhole)⟩

end Run

end Router

/-! ### The combined types -/

namespace TypeExports

section Run

variable {config : ApiConfig} {options : Bundle.Options} {before after : Sequence} {bundle : Bundle}
  (h : Generated config options before bundle after)

include h

/-- The import of the models of a resource finds them. -/
theorem lineLinks_schemaImport {resource : ResourceSpec} (hresource : resource ∈ config.resources) :
    ∀ line ∈ linesOf (schemaImport resource.name (Naming.schemaNames resource.name).toList),
      bundle.LineLinks .schemas "." line := by
  have hlegible : Imports.IsLegible (".schemas." ++ Naming.moduleName resource.name,
      (Naming.schemaNames resource.name).toList) :=
    isLegible_append (by decide) (by decide) (Naming.isPlain_moduleName resource.name)
      (List.cons_ne_nil _ _) (isPlain_schemaNames resource.name)
  have himport : schemaImport resource.name (Naming.schemaNames resource.name).toList =
      Imports.line (".schemas." ++ Naming.moduleName resource.name)
        (Naming.schemaNames resource.name).toList := by
    have hfrom : "from .schemas." = "from " ++ ".schemas." := by decide
    refine Eq.trans ?_ (line_eq hlegible).symm
    rw [← String.append_assoc, ← hfrom]
    rfl
  rw [himport, linesOf_line hlegible, List.forall_mem_singleton]
  exact Bundle.lineLinks_of_prefix hlegible rfl fun names hsub => h.provides_models hresource hsub

/-- What the combined types import is there. -/
theorem lineLinks_bodyLines (haccepted : config.Accepted) :
    ∀ line ∈ (bodyLines config (schemaExports bundle.schemas)).flatMap linesOf,
      bundle.LineLinks .schemas "." line := by
  have hidle : ∀ {whole}, Imports.IsIdle whole → ∀ line ∈ linesOf whole,
      bundle.LineLinks .schemas "." line := Bundle.lineLinks_of_isIdle
  have htyping : ∀ line ∈ linesOf "from typing import TypedDict", bundle.LineLinks .schemas "." line := by
    have hlines : linesOf "from typing import TypedDict" = ["from typing import TypedDict"] := by decide
    have hread : read? "from typing import TypedDict" = some ("typing", ["TypedDict"]) := by decide
    rw [hlines, List.forall_mem_singleton]
    exact Bundle.lineLinks_of_head? rfl hread (by decide)
  have hrecord : ∀ resource ∈ config.resources,
      Imports.IsIdle s!"{Schema.indent}{resource.name}: {resource.className}" := by
    intro resource hresource
    have hname := haccepted.admitted.identifiers _ (List.mem_map_of_mem hresource)
    have hclass : '\n' ∉ (": " ++ resource.className).toList :=
      not_mem_append (by decide) ((Naming.isPlain_className resource.name).not_mem (by decide))
    have hhead : (": " ++ resource.className).toList.head? ≠ some 'f' := by
      rw [String.toList_append]
      exact nofun
    have hwhole := (goesOnIdle_identifier_append hname _ hclass hhead).isIdle_append Schema.indent
      (by decide) rfl (by decide)
    simp only [← String.append_assoc] at hwhole
    exact hwhole
  have hdatabase : ∀ name text : String, '\n' ∉ name.toList → name.toList.head? = some 'D' →
      Imports.IsIdle (name ++ textLiteral text) := fun name text hname hhead =>
    (goesOnIdle_of_not_mem (lineFeed_not_mem_textLiteral text)).isIdle_append name hname hhead (by decide)
  have hexport : ∀ name, Imports.IsIdle s!"{Schema.indent}{textLiteral name}," := by
    intro name
    have hliteral := not_mem_append (lineFeed_not_mem_textLiteral name) (show '\n' ∉ ",".toList by decide)
    have hwhole := (goesOnIdle_of_not_mem hliteral).isIdle_append Schema.indent (by decide) rfl
      (by decide)
    rw [← String.append_assoc] at hwhole
    exact hwhole
  rw [schemaExports_eq h.schemas]
  unfold bodyLines Schema.exportLines
  simp only [List.forall_mem_flatMap, List.forall_mem_append, List.forall_mem_cons, List.forall_mem_map]
  exact ⟨⟨htyping, hidle (by decide), List.forall_mem_nil _⟩,
    fun resource hresource => lineLinks_schemaImport h hresource,
    ⟨hidle (by decide), hidle (hdatabase "DATABASE_NAME = " _ (by decide) (by decide)),
      hidle (hdatabase "DATABASE_BINDING = " _ (by decide) (by decide)), hidle (by decide),
      hidle (by decide), hidle (by decide), hidle (by decide), hidle (by decide), List.forall_mem_nil _⟩,
    fun resource hresource => hidle (hrecord resource hresource),
    ⟨hidle (by decide), hidle (by decide), List.forall_mem_nil _⟩,
    ⟨hidle (by decide), fun name _ => hidle (hexport name), fun _ _ name _ => hidle (hexport name)⟩,
    hidle (by decide), hidle (by decide), List.forall_mem_nil _⟩

end Run

end TypeExports

/-! ### Endpoints -/

/-- What the module of an endpoint imports from schemas is there. -/
theorem Endpoint.codeLinks_artifact {config : ApiConfig} {options : Bundle.Options}
    {before after : Sequence} {bundle : Bundle} (h : Generated config options before bundle after)
    (haccepted : config.Accepted) {resource : ResourceSpec} (hresource : resource ∈ config.resources)
    (operation : Operation) : bundle.CodeLinks .schemas ".." (artifact resource operation).content := by
  have hidentifier := haccepted.admitted.identifiers _ (List.mem_map_of_mem hresource)
  obtain ⟨code, extra, hcode, hextra, hlines⟩ := exists_code resource operation
  refine ⟨code, hcode, fun line hline => ?_⟩
  have hheader : ∀ line ∈ DocText.headerLines, bundle.LineLinks .schemas ".." line :=
    Bundle.lineLinks_headerLines rfl
  rcases (hlines line).mp hline with rfl | hmem | hmem
  · exact hheader _ List.mem_cons_self
  · exact hheader line (hextra hmem)
  · rcases read?_eq_none_or operation hidentifier hmem with
      hnone | ⟨entry, hentry, rfl⟩ | ⟨entry, hentry, rfl⟩
    · exact Bundle.lineLinks_of_read? hnone
    · obtain ⟨hlegible, hpackage⟩ := isLegible_of_mem_packageImports _ entry hentry
      have hpackages : ∀ package ∈ ["fastapi", "datetime", "typing", "uuid"],
          package.toList.head? ≠ some '.' := by decide
      exact Bundle.lineLinks_of_head? rfl (read?_line hlegible) (hpackages _ hpackage)
    · obtain ⟨hlegible, hstore | ⟨hmodule, hnames⟩⟩ :=
        isLegible_of_mem_relativeImports operation entry hentry
      · refine Bundle.lineLinks_of_not_prefix (read?_line hlegible) ?_
        rw [hstore]
        decide
      · exact Bundle.lineLinks_of_prefix hlegible hmodule fun names hsub =>
          h.provides_models hresource fun name hname => hnames (hsub hname)

/-! ### The package -/

section Package

variable {config : ApiConfig} {options : Bundle.Options} {before after : Sequence} {bundle : Bundle}

/-- A module that opens with a header links exactly if the lines that the name brings with it do. -/
theorem Bundle.codeLinks_header_iff {origin : Origin} {label : String}
    (hlabel : DocText.passed .elsewhere ('\n' :: label.toList) = some .elsewhere) {name : String}
    {lines : List String}
    (hlines : ∀ line ∈ lines.flatMap linesOf, bundle.LineLinks origin "." line) :
    bundle.CodeLinks origin "." (joinLines (Schema.header (label ++ name) ++ lines)) ↔
      ∀ line ∈ linesOf (DocText.leaked name), bundle.LineLinks origin "." line := by
  obtain ⟨code, extra, hcode, hextra, hmem⟩ := DocText.exists_code hlabel name lines
  constructor
  · rintro ⟨code', hcode', hlinks⟩ line hline
    obtain rfl := Option.some.inj (hcode.symm.trans hcode')
    exact hlinks line ((hmem line).mpr (Or.inl hline))
  · intro hname
    refine ⟨code, hcode, fun line hline => ?_⟩
    rcases (hmem line).mp hline with hleaked | hheader | hline
    · exact hname line hleaked
    · exact lineLinks_headerLines rfl line (hextra hheader)
    · exact hlines line hline

theorem Generated.codeLinks_router_iff (h : Generated config options before bundle after)
    (haccepted : config.Accepted) :
    bundle.CodeLinks .endpoints "." bundle.router.content ↔
      ∀ line ∈ linesOf (DocText.leaked config.name), bundle.LineLinks .endpoints "." line := by
  rw [Router.content_eq h]
  exact Bundle.codeLinks_header_iff Router.passed_docLabel (Router.lineLinks_bodyLines h haccepted)

theorem Generated.codeLinks_types_iff (h : Generated config options before bundle after)
    (haccepted : config.Accepted) :
    bundle.CodeLinks .schemas "." bundle.types.content ↔
      ∀ line ∈ linesOf (DocText.leaked config.name), bundle.LineLinks .schemas "." line := by
  rw [TypeExports.content_eq h]
  exact Bundle.codeLinks_header_iff TypeExports.passed_docLabel (TypeExports.lineLinks_bodyLines h haccepted)

/-- **The package links.** What the modules of endpoints import from schemas is always there. So is what the
router imports from endpoints and what the combined types import from schemas, exactly if it is so for the
lines that the name of the API brings into the code; a name that ends no doc text brings none. -/
theorem package_links_iff (h : run (build config options) before = (.ok bundle, after)) :
    (bundle.CodeLinks .endpoints "." bundle.router.content ↔
        ∀ line ∈ linesOf (DocText.leaked config.name), bundle.LineLinks .endpoints "." line) ∧
      (bundle.CodeLinks .schemas "." bundle.types.content ↔
        ∀ line ∈ linesOf (DocText.leaked config.name), bundle.LineLinks .schemas "." line) ∧
      (∀ artifact ∈ bundle.endpoints, bundle.CodeLinks .schemas ".." artifact.content) ∧
      (DocText.IsConfined config.name →
        bundle.CodeLinks .endpoints "." bundle.router.content ∧
          bundle.CodeLinks .schemas "." bundle.types.content) := by
  obtain ⟨haccepted, hgenerated⟩ := run_build_eq_ok h
  have hrouter := hgenerated.codeLinks_router_iff haccepted
  have htypes := hgenerated.codeLinks_types_iff haccepted
  refine ⟨hrouter, htypes, ?_, fun hconfined => ?_⟩
  · rw [hgenerated.endpoints]
    intro artifact hartifact
    obtain ⟨resource, hresource, hmem⟩ := List.mem_flatMap.mp hartifact
    obtain ⟨operation, -, rfl⟩ := List.mem_map.mp hmem
    exact Endpoint.codeLinks_artifact hgenerated haccepted hresource operation
  · have hleaked : ∀ origin, ∀ line ∈ linesOf (DocText.leaked config.name),
        bundle.LineLinks origin "." line := by
      intro origin
      rw [DocText.leaked_of_isConfined hconfined]
      exact Bundle.lineLinks_of_isIdle (by decide)
    exact ⟨hrouter.mpr (hleaked _), htypes.mpr (hleaked _)⟩

/-- What the modules of a blog import is there. -/
theorem package_links_blog :
    ∃ bundle after, run (build Blog.config {}) { stamp := "202401010000" } = (.ok bundle, after) ∧
      bundle.CodeLinks .endpoints "." bundle.router.content ∧
      bundle.CodeLinks .schemas "." bundle.types.content ∧
      ∀ artifact ∈ bundle.endpoints, bundle.CodeLinks .schemas ".." artifact.content := by
  obtain ⟨bundle, after, hrun⟩ := exists_of_isOk
    (show (run (build Blog.config {}) { stamp := "202401010000" }).1.isOk = true by decide +kernel)
  obtain ⟨-, -, hendpoints, hconfined⟩ := package_links_iff hrun
  obtain ⟨hrouter, htypes⟩ := hconfined (by decide)
  exact ⟨bundle, after, hrun, hrouter, htypes, hendpoints⟩

/-! ### A name that imports -/

/-- An API whose name ends the doc texts that it stands in, to import from a module that nothing makes. -/
def ghostly : ApiConfig :=
  { Blog.config with
    name := "Blog" ++ Schema.docQuotes ++ ("\nfrom .endpoints.ghost import boo\n" ++ Schema.docQuotes) }

/-- Such a configuration is accepted and built, and the router has an import that finds nothing. -/
theorem package_dangles_ghostly :
    ghostly.Accepted ∧ ∃ bundle after,
      run (build ghostly {}) { stamp := "202401010000" } = (.ok bundle, after) ∧
        "endpoints/ghost.py" ∉ bundle.fileMap.map (·.1) ∧
        ¬bundle.CodeLinks .endpoints "." bundle.router.content := by
  have hpaths : (run (build ghostly {}) { stamp := "202401010000" }).1.toOption.map
      (fun bundle => decide ("endpoints/ghost.py" ∈ bundle.fileMap.map (·.1))) = some false := by
    decide +kernel
  cases hrun : run (build ghostly {}) { stamp := "202401010000" } with
  | mk outcome after =>
      rw [hrun] at hpaths
      cases outcome with
      | error fault => cases hpaths
      | ok bundle =>
          obtain ⟨haccepted, hgenerated⟩ := run_build_eq_ok hrun
          have hmissing := of_decide_eq_false (Option.some.inj hpaths)
          refine ⟨haccepted, bundle, after, rfl, hmissing, fun hlinks => ?_⟩
          have hline : "from .endpoints.ghost import boo" ∈ linesOf (DocText.leaked ghostly.name) := by
            decide +kernel
          have hlink : Origin.endpoints.link? "." "from .endpoints.ghost import boo" =
              some ⟨"endpoints/ghost.py", ["boo"]⟩ := by decide +kernel
          exact hmissing ((hgenerated.codeLinks_router_iff haccepted).mp hlinks _ hline _ hlink).1

end Package

end ApiScaffold
