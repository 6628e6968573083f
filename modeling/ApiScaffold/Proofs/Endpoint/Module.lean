import Mathlib
import ApiScaffold.Proofs.Endpoint.Routes
import ApiScaffold.Proofs.Imports
import ApiScaffold.Proofs.Text.DocText
import ApiScaffold.Proofs.TypeExports

/-! The modules of endpoints, line by line. A module imports the schemas that its handler speaks of, from the
module of its resource, and nothing but its first lines imports names; it defines the handler. -/

namespace ApiScaffold.Endpoint

open Text Imports
open Schema (indent)

/-! ### Lines of handlers -/

/-- What a module of an endpoint tells is on one line each, but for the name of the resource, which may end
in a line feed. -/
structure IsTellable (spec : EndpointSpec) : Prop where
  resource : Naming.isIdentifier spec.resource = true
  handler : Naming.IsPlain spec.handlerName
  key : Naming.IsPlain spec.primaryKey
  table : Naming.IsPlain spec.tableName
  request : Naming.IsPlain (nameOr spec.requestSchema)
  response : Naming.IsPlain (nameOr spec.responseSchema)

theorem forall_mem_if {α : Type} {p : α → Prop} {condition : Prop} [Decidable condition] {items : List α}
    (h : ∀ item ∈ items, p item) : ∀ item ∈ (if condition then items else []), p item := by
  split
  · exact h
  · exact List.forall_mem_nil _

/-- Indented lines import nothing. -/
theorem isIdle_indented {text : String} (h : GoesOnIdle text) (depth : Nat) :
    IsIdle (indented (depth + 1) text) := by
  have hfeed : ∀ count, '\n' ∉ (String.join (List.replicate count indent)).toList := by
    intro count hmem
    rw [String.toList_join] at hmem
    obtain ⟨part, hpart, hchar⟩ := List.mem_flatMap.mp hmem
    rw [(List.mem_replicate.mp hpart).2] at hchar
    exact absurd hchar (by decide)
  have hhead : (String.join (List.replicate (depth + 1) indent)).toList.head? = some ' ' := by
    rw [String.toList_join, List.replicate_succ, List.flatMap_cons]
    rfl
  exact h.isIdle_append _ (hfeed _) hhead (by decide)

theorem isIdle_indented_of_not_mem {text : String} (h : '\n' ∉ text.toList) (depth : Nat) :
    IsIdle (indented (depth + 1) text) := isIdle_indented (goesOnIdle_of_not_mem h) depth

theorem lineFeed_not_mem_around {name : String} (hname : Naming.IsPlain name) (before behind : String)
    (hbefore : '\n' ∉ before.toList) (hbehind : '\n' ∉ behind.toList) :
    '\n' ∉ (before ++ name ++ behind).toList :=
  not_mem_append (not_mem_append hbefore (hname.not_mem (by decide))) hbehind

/-- An indented line with a plain name in it. -/
theorem isIdle_indented_around {name : String} (hname : Naming.IsPlain name) (before behind : String)
    (hbefore : '\n' ∉ before.toList) (hbehind : '\n' ∉ behind.toList) (depth : Nat) :
    IsIdle (indented (depth + 1) (before ++ name ++ behind)) :=
  isIdle_indented_of_not_mem (lineFeed_not_mem_around hname _ _ hbefore hbehind) depth

theorem lineFeed_not_mem_tupleLiteral (items : List String) : '\n' ∉ (tupleLiteral items).toList := by
  have hinner : '\n' ∉ (String.intercalate ", " (items.map textLiteral)).toList := by
    rw [String.toList_intercalate]
    refine not_mem_intercalate (by decide) fun group hgroup => ?_
    rw [List.map_map] at hgroup
    obtain ⟨item, -, rfl⟩ := List.mem_map.mp hgroup
    exact lineFeed_not_mem_textLiteral item
  unfold tupleLiteral tupleOf
  split
  · decide
  all_goals exact not_mem_append (not_mem_append (by decide) hinner) (by decide)

section Handlers

variable {spec : EndpointSpec} (h : IsTellable spec)

include h

theorem isIdle_signature {parameters : List String} {result : String}
    (hparameters : ∀ parameter ∈ parameters, '\n' ∉ parameter.toList) (hresult : '\n' ∉ result.toList)
    (before behind : String) (hbefore : '\n' ∉ before.toList)
    (hbehind : '\n' ∉ behind.toList) (hhead : behind.toList.head? = some ' ') :
    ∀ line ∈ signature spec parameters result (before ++ spec.resource ++ behind), IsIdle line := by
  have hdoc : GoesOnIdle ("\"\"\"" ++ (before ++ spec.resource ++ behind) ++ "\"\"\"") := by
    have hend : (behind ++ "\"\"\"").toList.head? ≠ some 'f' := by
      rw [String.toList_append, List.head?_append, hhead]
      decide
    have hrest := goesOnIdle_identifier_append h.resource _ (not_mem_append hbehind (by decide)) hend
    have hwhole := (hrest.append hbefore).append (show '\n' ∉ "\"\"\"".toList by decide)
    simpa only [String.append_assoc] using hwhole
  have hfirst : IsIdle ("async def " ++ spec.handlerName ++ "(") := by
    rw [String.append_assoc]
    exact (goesOnIdle_of_not_mem (not_mem_append (h.handler.not_mem (by decide)) (by decide))).isIdle_append
      _ (by decide) rfl (by decide)
  have hanswer : IsIdle (") -> " ++ result ++ ":") := by
    rw [String.append_assoc]
    exact (goesOnIdle_of_not_mem (not_mem_append hresult (by decide))).isIdle_append _ (by decide) rfl
      (by decide)
  unfold signature
  simp only [List.cons_append, List.forall_mem_cons, List.forall_mem_append, List.forall_mem_map]
  refine ⟨hfirst, ⟨fun parameter hmem => ?_, by decide, List.forall_mem_nil _⟩, hanswer,
    isIdle_indented hdoc 0, List.forall_mem_nil _⟩
  exact isIdle_indented_of_not_mem (not_mem_append (hparameters parameter hmem) (by decide)) 0

theorem isIdle_notFound {condition : String} (hcondition : '\n' ∉ condition.toList) :
    ∀ line ∈ notFound spec condition, IsIdle line := by
  have hdetail : GoesOnIdle s!"status_code=404, detail=\"{spec.resource} not found.\"" := by
    have hrest := goesOnIdle_identifier_append h.resource " not found.\"" (by decide) (by decide)
    have hwhole := hrest.append (show '\n' ∉ "status_code=404, detail=\"".toList by decide)
    rw [← String.append_assoc] at hwhole
    exact hwhole
  unfold notFound
  simp only [List.forall_mem_cons]
  refine ⟨isIdle_indented_of_not_mem (not_mem_append (not_mem_append (by decide) hcondition) (by decide)) 0,
    by decide, isIdle_indented hdetail 2, by decide, List.forall_mem_nil _⟩

theorem lineFeed_not_mem_keyParameter : '\n' ∉ (keyParameter spec).toList :=
  not_mem_append (h.key.not_mem (by decide)) (by decide)

theorem isIdle_createHandler : ∀ line ∈ createHandler spec, IsIdle line := by
  have hparameters : ∀ parameter ∈ [s!"payload: {nameOr spec.requestSchema}"], '\n' ∉ parameter.toList :=
    List.forall_mem_singleton.mpr (not_mem_append (by decide) (h.request.not_mem (by decide)))
  have hsignature := isIdle_signature h hparameters (h.response.not_mem (by decide)) "Create a new "
    " record." (by decide) (by decide) rfl
  unfold createHandler
  simp only [List.forall_mem_append]
  refine ⟨⟨⟨hsignature, by decide +kernel⟩,
    ⟨forall_mem_if (by decide +kernel), forall_mem_if (by decide +kernel)⟩,
    forall_mem_if (by decide +kernel)⟩, ?_⟩
  rw [List.forall_mem_cons, List.forall_mem_singleton]
  exact ⟨by decide +kernel, isIdle_indented_around h.response "return " ".model_validate(created)"
    (by decide) (by decide) 0⟩

theorem isIdle_listHandler : ∀ line ∈ listHandler spec, IsIdle line := by
  have hparameters : ∀ parameter ∈ [s!"query: {nameOr spec.requestSchema} = Depends()"],
      '\n' ∉ parameter.toList :=
    List.forall_mem_singleton.mpr (lineFeed_not_mem_around h.request _ _ (by decide) (by decide))
  have hsignature := isIdle_signature h hparameters (show '\n' ∉ "Dict[str, Any]".toList by decide) "List "
    " records with pagination, filters and search." (by decide) (by decide) rfl
  unfold listHandler
  rw [List.forall_mem_append]
  refine ⟨hsignature, ?_⟩
  have hanswer := isIdle_indented_around h.response "\"data\": ["
    ".model_validate(row) for row in rows]," (by decide) (by decide) 1
  -- All lines up to the one that answers with the records are fixed.
  iterate 17 refine List.forall_mem_cons.mpr ⟨by decide +kernel, ?_⟩
  exact List.forall_mem_cons.mpr ⟨hanswer, by decide +kernel⟩

theorem isIdle_getHandler : ∀ line ∈ getHandler spec, IsIdle line := by
  have hparameters : ∀ parameter ∈ [keyParameter spec], '\n' ∉ parameter.toList :=
    List.forall_mem_singleton.mpr (lineFeed_not_mem_keyParameter h)
  have hsignature := isIdle_signature h hparameters (h.response.not_mem (by decide)) "Retrieve a single "
    " record." (by decide) (by decide) rfl
  have hread := isIdle_indented_around h.key "record = await store.get(TABLE_NAME, PRIMARY_KEY, " ")"
    (by decide) (by decide) 0
  have hanswer := isIdle_indented_around h.response "return " ".model_validate(record)" (by decide)
    (by decide) 0
  unfold getHandler
  simp only [List.forall_mem_append, List.forall_mem_singleton]
  exact ⟨⟨⟨hsignature, hread⟩, isIdle_notFound h (by decide)⟩, hanswer⟩

theorem isIdle_updateHandler : ∀ line ∈ updateHandler spec, IsIdle line := by
  have hpayload : '\n' ∉ (s!"payload: {nameOr spec.requestSchema}").toList :=
    not_mem_append (by decide) (h.request.not_mem (by decide))
  have hparameters : ∀ parameter ∈ [s!"payload: {nameOr spec.requestSchema}", keyParameter spec],
      '\n' ∉ parameter.toList :=
    List.forall_mem_cons.mpr
      ⟨hpayload, List.forall_mem_singleton.mpr (lineFeed_not_mem_keyParameter h)⟩
  have hsignature := isIdle_signature h hparameters (h.response.not_mem (by decide)) "Update an existing "
    " record." (by decide) (by decide) rfl
  have hwrite := isIdle_indented_around h.key "updated = await store.update(TABLE_NAME, PRIMARY_KEY, "
    ", changes)" (by decide) (by decide) 0
  have hanswer := isIdle_indented_around h.response "return " ".model_validate(updated)" (by decide)
    (by decide) 0
  unfold updateHandler
  simp only [List.forall_mem_append, List.forall_mem_singleton]
  exact ⟨⟨⟨⟨⟨hsignature, by decide +kernel⟩, forall_mem_if (by decide +kernel)⟩, hwrite⟩,
    isIdle_notFound h (by decide)⟩, hanswer⟩

theorem isIdle_deleteHandler : ∀ line ∈ deleteHandler spec, IsIdle line := by
  have hparameters : ∀ parameter ∈ [keyParameter spec], '\n' ∉ parameter.toList :=
    List.forall_mem_singleton.mpr (lineFeed_not_mem_keyParameter h)
  have hsignature := isIdle_signature h hparameters (show '\n' ∉ "None".toList by decide) "Delete a "
    " record." (by decide) (by decide) rfl
  have hwrite := isIdle_indented_around h.key "deleted = await store.delete(TABLE_NAME, PRIMARY_KEY, " ")"
    (by decide) (by decide) 0
  unfold deleteHandler
  simp only [List.forall_mem_append, List.forall_mem_singleton]
  exact ⟨⟨hsignature, hwrite⟩, isIdle_notFound h (by decide)⟩

/-- No handler imports anything. -/
theorem isIdle_handler : ∀ line ∈ handler spec, IsIdle line := by
  unfold handler
  split
  · exact isIdle_createHandler h
  · exact isIdle_listHandler h
  · exact isIdle_getHandler h
  · exact isIdle_updateHandler h
  · exact isIdle_deleteHandler h

theorem isIdle_constants (filters : List String) : ∀ line ∈ constants spec filters, IsIdle line := by
  have hassigned : ∀ name text : String, '\n' ∉ name.toList → name.toList.head? ≠ some 'f' →
      name.toList.head? ≠ none → '\n' ∉ text.toList → IsIdle (name ++ text) := by
    intro name text hname hhead hsome htext
    obtain ⟨c, hc⟩ := Option.ne_none_iff_exists'.mp hsome
    exact (goesOnIdle_of_not_mem htext).isIdle_append _ hname hc fun heq => hhead (heq ▸ hc)
  have hquoted : ∀ {name : String}, Naming.IsPlain name → '\n' ∉ (name ++ "\"").toList := fun hname =>
    not_mem_append (hname.not_mem (by decide)) (by decide)
  have htable := hassigned "TABLE_NAME = \"" _ (by decide) (by decide) (by decide) (hquoted h.table)
  have hkey := hassigned "PRIMARY_KEY = \"" _ (by decide) (by decide) (by decide) (hquoted h.key)
  rw [← String.append_assoc] at htable hkey
  unfold constants listConstants
  simp only [List.forall_mem_append, List.forall_mem_cons]
  refine ⟨⟨htable, hkey, List.forall_mem_nil _⟩, forall_mem_if ?_⟩
  simp only [List.forall_mem_cons]
  exact ⟨hassigned "FILTER_FIELDS = " _ (by decide) (by decide) (by decide) (lineFeed_not_mem_tupleLiteral _),
    hassigned "SEARCH_FIELDS = " _ (by decide) (by decide) (by decide) (lineFeed_not_mem_tupleLiteral _),
    hassigned "ORDER_BY_FIELDS = " _ (by decide) (by decide) (by decide) (lineFeed_not_mem_tupleLiteral _),
    List.forall_mem_nil _⟩

end Handlers

/-! ### Modules -/

/-- What the doc text of a module tells. -/
def title (spec : EndpointSpec) : String := s!"{artifactName spec} endpoint: {spec.method.name} {spec.path}"

/-- The lines of a module behind its header. -/
def bodyLines (spec : EndpointSpec) (filters : List String) : List String :=
  importLines spec ++ ("" :: constants spec filters ++ (["", ""] ++ (handler spec ++ [""])))

theorem moduleText_eq (spec : EndpointSpec) (filters : List String) :
    moduleText spec filters = joinLines (Schema.header (title spec) ++ bodyLines spec filters) := by
  simp only [moduleText, bodyLines, title, List.append_assoc, List.cons_append]

section Described

variable {resource : ResourceSpec} (operation : Operation)

theorem isTellable_describe (h : Naming.isIdentifier resource.name = true) :
    IsTellable (describe resource operation) := by
  have hschemas := TypeExports.isPlain_schemaNames resource.name
  simp only [Naming.SchemaNames.toList, List.forall_mem_cons] at hschemas
  obtain ⟨hrecord, hcreate, hupdate, hquery, -⟩ := hschemas
  have hnone : Naming.IsPlain "None" := by decide
  exact {
    resource := h
    handler := isPlain_handlerOf resource.name operation
    key := show Naming.IsPlain primaryKey by decide
    table := Naming.isPlain_tableName resource.name
    request := by
      cases operation with
      | create => exact hcreate
      | list => exact hquery
      | update => exact hupdate
      | get | delete => exact hnone
    response := by
      cases operation with
      | create | list | get | update => exact hrecord
      | delete => exact hnone }

/-- Nothing in the title ends the doc text. -/
theorem isConfined_title : DocText.IsConfined (title (describe resource operation)) := by
  have hname : Naming.IsPlain (artifactName (describe resource operation)) := by
    have hclass := Naming.isPlain_className resource.name
    have hlabel : Naming.IsPlain operation.label := by cases operation <;> decide
    refine hlabel.append ?_
    split
    · exact hclass.plural
    · exact hclass
  have hmethod : Naming.IsPlain (methodOf operation).name := by cases operation <;> decide
  have hall : ∀ c ∈ (title (describe resource operation)).toList, isOrdinary c = true := by
    have hmiddle : " endpoint: ".toList.all isOrdinary = true := by decide
    have hblank : " ".toList.all isOrdinary = true := by decide
    rw [List.all_eq_true] at hmiddle hblank
    have hwhole : title (describe resource operation) = artifactName (describe resource operation) ++
      " endpoint: " ++ (methodOf operation).name ++ " " ++ pathOf resource.name operation := rfl
    rw [hwhole]
    simp only [String.toList_append, List.forall_mem_append]
    exact ⟨⟨⟨⟨hname.isOrdinary, hmiddle⟩, hmethod.isOrdinary⟩, hblank⟩, fun c => isOrdinary_of_mem_pathOf⟩
  rw [DocText.IsConfined, DocText.passed_of_ne]
  · rfl
  · intro c hc
    exact ⟨ne_of_isOrdinary (hall c hc) (by decide), ne_of_isOrdinary (hall c hc) (by decide)⟩

omit resource in
/-- The packages that a module of an endpoint uses. -/
theorem isLegible_of_mem_packageImports (spec : EndpointSpec) :
    ∀ entry ∈ packageImports spec,
      IsLegible entry ∧ entry.1 ∈ ["fastapi", "datetime", "typing", "uuid"] := by
  unfold packageImports
  simp only [List.forall_mem_append, List.forall_mem_singleton]
  refine ⟨⟨⟨?_, forall_mem_if (by decide)⟩, forall_mem_if (by decide)⟩, forall_mem_if (by decide)⟩
  split <;> decide

theorem schemaNames_subset :
    schemaNames (describe resource operation) ⊆ (Naming.schemaNames resource.name).toList := by
  have hall : (requestOf resource.name operation).toList ++ (responseOf resource.name operation).toList ⊆
      (Naming.schemaNames resource.name).toList := by
    cases operation <;> simp [requestOf, responseOf, Naming.SchemaNames.toList]
  exact fun name hname => hall (List.mem_filter.mp hname).1

/-- Within the package, a module uses the store and the schemas of its resource. -/
theorem isLegible_of_mem_relativeImports :
    ∀ entry ∈ relativeImports (describe resource operation), IsLegible entry ∧
      (entry.1 = "..store" ∨ entry.1 = "..schemas." ++ Naming.moduleName resource.name ∧
        entry.2 ⊆ (Naming.schemaNames resource.name).toList) := by
  have hmodule := Naming.isPlain_moduleName resource.name
  unfold relativeImports
  rw [List.forall_mem_append, List.forall_mem_singleton]
  refine ⟨⟨by decide, Or.inl rfl⟩, ?_⟩
  split
  · exact List.forall_mem_nil _
  · rename_i hne
    rw [List.forall_mem_singleton]
    refine ⟨isLegible_append (by decide) (by decide) hmodule (by simpa using hne) fun name hname => ?_,
      Or.inr ⟨rfl, schemaNames_subset operation⟩⟩
    exact TypeExports.isPlain_schemaNames resource.name name (schemaNames_subset operation hname)

/-- A line of a module imports no names, unless it is the line of an entry of its imports. -/
theorem read?_eq_none_or {filters : List String} (h : Naming.isIdentifier resource.name = true) {line : String}
    (hline : line ∈ (bodyLines (describe resource operation) filters).flatMap linesOf) :
    read? line = none ∨
      (∃ entry ∈ packageImports (describe resource operation), line = Imports.line entry.1 entry.2) ∨
      ∃ entry ∈ relativeImports (describe resource operation), line = Imports.line entry.1 entry.2 := by
  have htellable := isTellable_describe operation h
  have hidle : ∀ whole ∈ "" :: constants (describe resource operation) filters ++
      (["", ""] ++ (handler (describe resource operation) ++ [""])), IsIdle whole := by
    have hempty : IsIdle "" := by decide
    simp only [List.cons_append, List.nil_append, List.forall_mem_cons, List.forall_mem_append]
    exact ⟨hempty, isIdle_constants htellable filters, hempty, hempty, isIdle_handler htellable, hempty,
      List.forall_mem_nil _⟩
  have hentry : ∀ {imports : Imports}, (∀ entry ∈ imports, IsLegible entry) →
      line ∈ imports.lines.flatMap linesOf → ∃ entry ∈ imports, line = Imports.line entry.1 entry.2 := by
    intro imports hlegible hmem
    obtain ⟨whole, hwhole, hmem⟩ := List.mem_flatMap.mp hmem
    obtain ⟨entry, hentry, rfl⟩ := mem_lines.mp hwhole
    rw [linesOf_line (hlegible entry hentry), List.mem_singleton] at hmem
    exact ⟨entry, hentry, hmem⟩
  rw [bodyLines, importLines, List.flatMap_append, List.flatMap_append, List.mem_append, List.mem_append,
    List.flatMap_cons, List.mem_append] at hline
  rcases hline with (hpackage | hempty | hrelative) | hrest
  · exact Or.inr (Or.inl (hentry (fun entry hmem => (isLegible_of_mem_packageImports _ entry hmem).1) hpackage))
  · rw [List.mem_singleton.mp hempty]
    exact Or.inl (by decide)
  · exact Or.inr (Or.inr (hentry (fun entry hmem => (isLegible_of_mem_relativeImports operation entry hmem).1)
      hrelative))
  · obtain ⟨whole, hwhole, hmem⟩ := List.mem_flatMap.mp hrest
    exact Or.inl ((hidle whole hwhole).read? line hmem)

/-- A module defines its handler. -/
theorem definition_mem_bodyLines (resource : ResourceSpec) (filters : List String) :
    s!"async def {handlerOf resource.name operation}(" ∈
      (bodyLines (describe resource operation) filters).flatMap linesOf := by
  have hfeed := lineFeed_not_mem_around (isPlain_handlerOf resource.name operation) "async def " "("
    (by decide) (by decide)
  have hhandler : s!"async def {handlerOf resource.name operation}(" ∈
      handler (describe resource operation) := by
    cases operation <;> simp [handler, describe, createHandler, listHandler, getHandler, updateHandler,
      deleteHandler, signature]
  have hbody : s!"async def {handlerOf resource.name operation}(" ∈
      bodyLines (describe resource operation) filters := by
    refine List.mem_append_right _ (List.mem_append_right _ (List.mem_append_right _ ?_))
    exact List.mem_append_left _ hhandler
  exact mem_flatMap_linesOf hbody hfeed

end Described

end ApiScaffold.Endpoint
