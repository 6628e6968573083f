import Mathlib
import ApiScaffold.Proofs.Endpoint.Routes

/-! The routes that the router module registers, read from its text. Behind the line that makes the router,
every line that begins a registration names a path and a method between quotes. Each endpoint has one such
line; the comments over the groups are none, unless the name of a resource runs over several lines. -/

namespace ApiScaffold.Router

open Text

/-! ### Reading -/

/-- The line that makes the router. -/
def opening : String := "router = APIRouter()"

/-- The method and the path that a line registers, if it registers a route. -/
def route? (line : String) : Option (String × String) :=
  match partsAt '"' line with
  | call :: path :: _ :: method :: _ => if call = "router.add_api_route(" then some (method, path) else none
  | _ => none

/-- The routes that the text of a router module registers, in order. -/
def registrations (text : String) : List (String × String) :=
  (behindLast opening (linesOf text)).filterMap route?

/-- A line that registers no route and does not make the router. -/
def IsIdle (line : String) : Prop := route? line = none ∧ line ≠ opening

instance (line : String) : Decidable (IsIdle line) := inferInstanceAs (Decidable (_ ∧ _))

/-- Where the name of a resource has several lines, those behind the first one do nothing. -/
def IsHarmless (name : String) : Prop := ∀ line ∈ (linesOf name).tail, IsIdle line

instance (name : String) : Decidable (IsHarmless name) := inferInstanceAs (Decidable (∀ line ∈ _, _))

/-- Registrations and the line that makes the router begin with the same letter. -/
theorem isIdle_of_head? {line : String} (h : line.toList.head? ≠ some 'r') : IsIdle line := by
  constructor
  · rw [route?]
    split
    · rename_i call path _ method _ hparts
      have hcall : call ≠ "router.add_api_route(" := by
        rintro rfl
        obtain ⟨rest, hline⟩ := isPrefix_of_partsAt hparts
        exact h (hline ▸ rfl)
      rw [if_neg hcall]
    · rfl
  · rintro rfl
    exact h rfl

/-! ### Lines of the module -/

theorem exists_routeLine (spec : EndpointSpec) :
    ∃ rest, routeLine spec = "router.add_api_route(" ++ textLiteral spec.path
      ++ (", " ++ spec.handlerName ++ ", methods=[") ++ textLiteral spec.method.name ++ rest := by
  obtain ⟨first, others, harguments⟩ : ∃ first others,
      (if spec.statusCode = 200 then [] else [s!"status_code={spec.statusCode}"])
        ++ [s!"tags=[{textLiteral spec.resource}]"] = first :: others := by
    split
    · exact ⟨_, _, rfl⟩
    · exact ⟨_, _, rfl⟩
  have hmethods : s!"methods=[{textLiteral spec.method.name}]" =
      "methods=[" ++ textLiteral spec.method.name ++ "]" := rfl
  have hmark : ", methods=[" = ", " ++ "methods=[" := by decide
  refine ⟨"]" ++ ", " ++ String.intercalate ", " (first :: others) ++ ")", ?_⟩
  unfold routeLine
  simp only [harguments, hmethods, List.cons_append, List.nil_append, String.intercalate_cons_cons]
  simp only [hmark, String.append_assoc]

/-- An endpoint whose path can be put between quotes as it is and whose handler has a plain name. -/
structure IsLegible (spec : EndpointSpec) : Prop where
  path : ∀ c ∈ spec.path.toList, isOrdinary c = true
  handler : Naming.IsPlain spec.handlerName
  status : '\n' ∉ (toString spec.statusCode).toList

/-- A registration is read back as it was written. -/
theorem route?_routeLine {spec : EndpointSpec} (h : IsLegible spec) :
    route? (routeLine spec) = some (spec.method.name, spec.path) := by
  obtain ⟨rest, hline⟩ := exists_routeLine spec
  have hquote : ∀ {text : String}, (∀ c ∈ text.toList, isOrdinary c = true) → '"' ∉ text.toList :=
    fun htext hmem => absurd (htext _ hmem) (by decide)
  have hmethod : ∀ c ∈ spec.method.name.toList, isOrdinary c = true := by
    cases spec.method <;> rw [← List.all_eq_true] <;> decide
  have hhandler : '"' ∉ (", " ++ spec.handlerName ++ ", methods=[").toList :=
    not_mem_append (not_mem_append (by decide) (h.handler.not_mem (by decide))) (by decide)
  have hparts : partsAt '"' (routeLine spec) =
      "router.add_api_route(" :: spec.path :: (", " ++ spec.handlerName ++ ", methods=[") ::
        spec.method.name :: partsAt '"' rest := by
    rw [hline, textLiteral_of_isOrdinary h.path, textLiteral_of_isOrdinary hmethod]
    rw [← partsAt_append (hquote hmethod), ← partsAt_append hhandler, ← partsAt_append (hquote h.path),
      ← partsAt_append (show '"' ∉ "router.add_api_route(".toList by decide)]
    simp only [String.append_assoc]
  rw [route?, hparts]
  rfl

theorem lineFeed_not_mem_routeLine {spec : EndpointSpec} (h : IsLegible spec) :
    '\n' ∉ (routeLine spec).toList := by
  have hlist : ∀ {text start : String}, '\n' ∉ text.toList → '\n' ∉ start.toList →
      '\n' ∉ (start ++ text ++ "]").toList :=
    fun htext hstart => not_mem_append (not_mem_append hstart htext) (by decide)
  unfold routeLine
  refine not_mem_append (not_mem_append (by decide) ?_) (by decide)
  rw [String.toList_intercalate]
  refine not_mem_intercalate (by decide) fun group hgroup => ?_
  obtain ⟨argument, hargument, rfl⟩ := List.mem_map.mp hgroup
  simp only [List.mem_append, List.mem_cons, List.not_mem_nil, or_false] at hargument
  rcases hargument with ((rfl | rfl | rfl) | hstatus) | rfl
  · exact lineFeed_not_mem_textLiteral spec.path
  · exact h.handler.not_mem (by decide)
  · exact hlist (lineFeed_not_mem_textLiteral spec.method.name) (by decide)
  · split at hstatus
    · exact absurd hstatus List.not_mem_nil
    · rw [List.mem_singleton.mp hstatus]
      exact not_mem_append (by decide) h.status
  · exact hlist (lineFeed_not_mem_textLiteral spec.resource) (by decide)

theorem linesOf_routeLine {spec : EndpointSpec} (h : IsLegible spec) :
    linesOf (routeLine spec) = [routeLine spec] := partsAt_of_not_mem (lineFeed_not_mem_routeLine h)

/-- The comment over a group does nothing. -/
theorem isIdle_of_mem_heading {resource : String} (h : IsHarmless resource) :
    ∀ line ∈ linesOf s!"# {resource}", IsIdle line := by
  obtain ⟨part, hpart⟩ := exists_partsAt_append (show '\n' ∉ "# ".toList by decide) resource
  have hlines : linesOf s!"# {resource}" = ("# " ++ part) :: (linesOf resource).tail := hpart
  rw [hlines, List.forall_mem_cons]
  refine ⟨isIdle_of_head? ?_, h⟩
  rw [String.toList_append]
  exact nofun

/-- The lines over an endpoint that begins a group. -/
def heading (current : Option String) (spec : EndpointSpec) : List String :=
  if current = some spec.resource then [] else ["", s!"# {spec.resource}"]

theorem isIdle_of_mem_lines_heading {current : Option String} {spec : EndpointSpec}
    (h : IsHarmless spec.resource) : ∀ line ∈ (heading current spec).flatMap linesOf, IsIdle line := by
  rw [heading]
  split
  · exact List.forall_mem_nil _
  · rw [List.flatMap_cons, List.flatMap_singleton, List.forall_mem_append]
    exact ⟨by decide, isIdle_of_mem_heading h⟩

theorem routeLines_cons (current : Option String) (spec : EndpointSpec) (rest : List EndpointSpec) :
    (routeLines current (spec :: rest)).flatMap linesOf =
      (heading current spec).flatMap linesOf ++
        (linesOf (routeLine spec) ++ (routeLines (some spec.resource) rest).flatMap linesOf) := by
  rw [routeLines, List.flatMap_append, List.flatMap_cons]
  rfl

section Endpoints

variable {specs : List EndpointSpec} {current : Option String}

/-- The lines of routes register the route of every endpoint, in order. -/
theorem filterMap_routeLines (hlegible : ∀ spec ∈ specs, IsLegible spec)
    (hharmless : ∀ spec ∈ specs, IsHarmless spec.resource) :
    ((routeLines current specs).flatMap linesOf).filterMap route? =
      specs.map fun spec => (spec.method.name, spec.path) := by
  induction specs generalizing current with
  | nil => rfl
  | cons spec rest ih =>
      rw [List.forall_mem_cons] at hlegible hharmless
      have hheading : ((heading current spec).flatMap linesOf).filterMap route? = [] := by
        rw [List.filterMap_eq_nil_iff]
        exact fun line hline => (isIdle_of_mem_lines_heading hharmless.1 line hline).1
      rw [routeLines_cons, List.filterMap_append, hheading, List.nil_append, List.filterMap_append,
        linesOf_routeLine hlegible.1, ih hlegible.2 hharmless.2, List.map_cons]
      simp [route?_routeLine hlegible.1]

/-- No line of routes makes the router again. -/
theorem opening_not_mem_routeLines (hlegible : ∀ spec ∈ specs, IsLegible spec)
    (hharmless : ∀ spec ∈ specs, IsHarmless spec.resource) :
    opening ∉ (routeLines current specs).flatMap linesOf := by
  induction specs generalizing current with
  | nil => exact List.not_mem_nil
  | cons spec rest ih =>
      rw [List.forall_mem_cons] at hlegible hharmless
      rw [routeLines_cons, List.mem_append, List.mem_append, not_or, not_or,
        linesOf_routeLine hlegible.1, List.mem_singleton]
      refine ⟨fun hmem => (isIdle_of_mem_lines_heading hharmless.1 _ hmem).2 rfl, ?_,
        ih hlegible.2 hharmless.2⟩
      intro heq
      have hnone : route? opening = none := by decide
      rw [heq, route?_routeLine hlegible.1] at hnone
      cases hnone

end Endpoints

/-! ### The application -/

/-- A single line that does nothing. -/
def IsIdleLine (line : String) : Prop := '\n' ∉ line.toList ∧ line.toList.head? ≠ some 'r'

instance (line : String) : Decidable (IsIdleLine line) := inferInstanceAs (Decidable (_ ∧ _))

/-- A single line that is empty, indented, or defines the application. -/
def IsApplicationLine (line : String) : Prop :=
  '\n' ∉ line.toList ∧ line.toList.head? ∈ [none, some ' ', some 'd']

instance (line : String) : Decidable (IsApplicationLine line) := inferInstanceAs (Decidable (_ ∧ _))

theorem IsApplicationLine.isIdleLine {line : String} (h : IsApplicationLine line) : IsIdleLine line := by
  refine ⟨h.1, fun hhead => ?_⟩
  have hbegins := h.2
  rw [hhead] at hbegins
  exact absurd hbegins (by decide)

theorem isApplicationLine_of_literal {start : String} (h : '\n' ∉ start.toList)
    (hhead : start.toList.head? = some ' ') (text : String) :
    IsApplicationLine (start ++ textLiteral text ++ ",") := by
  refine ⟨not_mem_append (not_mem_append h (lineFeed_not_mem_textLiteral text)) (by decide), ?_⟩
  rw [String.toList_append, String.toList_append, List.append_assoc, List.head?_append, hhead]
  exact List.mem_cons_of_mem _ List.mem_cons_self

theorem isApplicationLine_of_mem (config : ApiConfig) :
    ∀ line ∈ applicationLines config, IsApplicationLine line := by
  have hliteral : ∀ name text : String, '\n' ∉ name.toList →
      IsApplicationLine (s!"{Schema.indent ++ Schema.indent}{name}={textLiteral text},") := by
    intro name text hname
    have hstart : '\n' ∉ (Schema.indent ++ Schema.indent ++ name ++ "=").toList :=
      not_mem_append (not_mem_append (by decide) hname) (by decide)
    refine isApplicationLine_of_literal hstart ?_ text
    rw [String.append_assoc, String.toList_append]
    rfl
  unfold applicationLines
  simp only [List.forall_mem_append, List.forall_mem_cons, List.forall_mem_map]
  refine ⟨⟨⟨by decide, by decide, by decide, hliteral "title" _ (by decide),
    hliteral "version" _ (by decide), List.forall_mem_nil _⟩,
    fun text _ => hliteral "description" text (by decide)⟩,
    by decide, by decide, by decide, by decide, List.forall_mem_nil _⟩

theorem isIdle_of_mem_lines {lines : List String} (h : ∀ line ∈ lines, IsIdleLine line) :
    ∀ line ∈ lines.flatMap linesOf, IsIdle line := by
  intro line hline
  obtain ⟨whole, hwhole, hmem⟩ := List.mem_flatMap.mp hline
  obtain ⟨hfeed, hhead⟩ := h whole hwhole
  rw [linesOf, partsAt_of_not_mem hfeed, List.mem_singleton] at hmem
  exact hmem ▸ isIdle_of_head? hhead

theorem exists_moduleText (config : ApiConfig) (specs : List EndpointSpec) :
    ∃ front, moduleText config specs =
      Text.joinLines (front ++ opening :: (routeLines none specs ++ (["", ""] ++ applicationLines config))) := by
  refine ⟨Schema.header s!"Route registration for API: {config.name}" ++
    [Imports.block [("fastapi", ["APIRouter", "FastAPI"])], "", (handlerImports specs).block, ""], ?_⟩
  unfold moduleText
  simp only [List.append_assoc, List.cons_append, List.nil_append]
  rfl

/-- The text of the module registers the route of every endpoint, in order, and nothing else. -/
theorem registrations_moduleText (config : ApiConfig) {specs : List EndpointSpec}
    (hlegible : ∀ spec ∈ specs, IsLegible spec) (hharmless : ∀ spec ∈ specs, IsHarmless spec.resource) :
    registrations (moduleText config specs) = specs.map fun spec => (spec.method.name, spec.path) := by
  have hidle : ∀ line ∈ (["", ""] ++ applicationLines config).flatMap linesOf, IsIdle line := by
    refine isIdle_of_mem_lines ?_
    rw [List.forall_mem_append]
    exact ⟨by decide, fun line hline => (isApplicationLine_of_mem config line hline).isIdleLine⟩
  have hopening : opening ∉ (routeLines none specs).flatMap linesOf ++
      (["", ""] ++ applicationLines config).flatMap linesOf := by
    rw [List.mem_append, not_or]
    exact ⟨opening_not_mem_routeLines hlegible hharmless, fun hmem => (hidle _ hmem).2 rfl⟩
  obtain ⟨front, htext⟩ := exists_moduleText config specs
  have hlines : linesOf (moduleText config specs) =
      front.flatMap linesOf ++ opening :: ((routeLines none specs).flatMap linesOf ++
        (["", ""] ++ applicationLines config).flatMap linesOf) := by
    have hone : linesOf opening = [opening] := by decide
    rw [htext, linesOf_joinLines (by simp), List.flatMap_append, List.flatMap_cons, hone,
      List.flatMap_append, List.singleton_append]
  have hnone : ((["", ""] ++ applicationLines config).flatMap linesOf).filterMap route? = [] := by
    rw [List.filterMap_eq_nil_iff]
    exact fun line hline => (hidle line hline).1
  rw [registrations, hlines, behindLast_append hopening, List.filterMap_append, hnone, List.append_nil,
    filterMap_routeLines hlegible hharmless]

/-! ### Configurations -/

theorem isLegible_specOf (resource : ResourceSpec) (operation : Operation) :
    IsLegible (Endpoint.specOf resource operation) := by
  have hstatus : ∀ op, '\n' ∉ (toString (Endpoint.statusOf op)).toList := by
    intro op
    cases op <;> decide
  exact {
    path := fun _ hc => Endpoint.isOrdinary_of_mem_pathOf hc
    handler := Endpoint.isPlain_handlerOf resource.name operation
    status := hstatus operation }

/-- An identifier has at most an empty line behind its first one. -/
theorem isHarmless_of_isIdentifier {name : String} (h : Naming.isIdentifier name = true) :
    IsHarmless name := by
  have hfree : '\n' ∉ Naming.dropLineFeed name.toList := fun hmem =>
    absurd (Naming.isNameChar_of_mem_dropLineFeed h hmem) (by decide)
  rw [IsHarmless, linesOf, partsAt]
  rcases Naming.eq_dropLineFeed_or name.toList with heq | heq
  · rw [heq, List.splitOn_eq_singleton hfree]
    exact List.forall_mem_nil _
  · rw [heq, List.splitOn_append_cons_self_of_not_mem hfree, List.splitOn_nil]
    exact List.forall_mem_singleton.mpr (by decide)

theorem isLegible_of_mem_endpointSpecs (config : ApiConfig) :
    ∀ spec ∈ Bundle.endpointSpecs (Endpoint.artifacts config), IsLegible spec := by
  intro spec hspec
  obtain ⟨resource, -, operation, rfl⟩ := Endpoint.exists_specOf_of_mem hspec
  exact isLegible_specOf resource operation

/-- The router module of a configuration registers the routes of all resources. -/
theorem registrations_artifact {config : ApiConfig}
    (h : ∀ resource ∈ config.resources, IsHarmless resource.name) :
    registrations (artifact config (Bundle.endpointSpecs (Endpoint.artifacts config))).content =
      Endpoint.routes config := by
  have hharmless : ∀ spec ∈ Bundle.endpointSpecs (Endpoint.artifacts config),
      IsHarmless spec.resource := by
    intro spec hspec
    obtain ⟨resource, hresource, operation, rfl⟩ := Endpoint.exists_specOf_of_mem hspec
    exact h resource hresource
  have hread := registrations_moduleText config (isLegible_of_mem_endpointSpecs config) hharmless
  simp only [artifact]
  exact hread.trans (Endpoint.map_route_endpointSpecs config)

end ApiScaffold.Router
