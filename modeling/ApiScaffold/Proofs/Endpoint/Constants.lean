import Mathlib
import ApiScaffold.Proofs.Endpoint.Module
import ApiScaffold.Proofs.Text.Beginning
import ApiScaffold.Proofs.Text.Literal

/-! The constants of endpoint modules, read from the lines of a module. Every constant is assigned once, and no
other line can be taken for its assignment, whatever the resource is called. -/

namespace ApiScaffold.Endpoint

open Text
open Schema (indent)

/-! ### Reading -/

/-- The expressions that lines assign to a name. -/
def assigned (name : String) (lines : List String) : List String :=
  lines.filterMap (behind? (name ++ " = "))

/-- The value of a constant that is assigned once. -/
def constant? {α : Type} (read : String → Option α) (name : String) (lines : List String) : Option α :=
  match assigned name lines with
  | [expression] => read expression
  | _ => none

/-- The lines of the module of an operation. -/
def moduleLines (resource : ResourceSpec) (operation : Operation) : List String :=
  Schema.header (title (describe resource operation)) ++
    bodyLines (describe resource operation) (resource.queryFilters.map FieldSpec.name)

theorem artifact_content (resource : ResourceSpec) (operation : Operation) :
    (artifact resource operation).content = joinLines (moduleLines resource operation) := by
  rw [moduleLines, ← moduleText_eq, artifact]

/-! ### Lines that assign nothing -/

/-- How the lines of a module begin that stand before its constants. -/
def openings : List String := ["\"", "C", "L", "G", "U", "D", "A", "f"]

/-- How the lines of a handler begin. -/
def handlerOpenings : List String := ["async def ", ") -> ", " "]

section Lines

variable (resource : ResourceSpec) (operation : Operation)

theorem opens_header :
    ∀ line ∈ Schema.header (title (describe resource operation)), Opens openings line := by
  have htitle : Opens openings (title (describe resource operation)) := by
    obtain ⟨rest, hrest⟩ : ∃ rest, title (describe resource operation) = operation.label ++ rest := by
      simp only [title, artifactName, toString, String.append_assoc]
      exact ⟨_, rfl⟩
    have hopens : ∃ front ∈ openings, front.toList <+: operation.label.toList := by
      cases operation <;> decide
    obtain ⟨front, hfront, hprefix⟩ := hopens
    refine Or.inr ⟨front, hfront, hprefix.trans ?_⟩
    rw [hrest, String.toList_append]
    exact List.prefix_append _ _
  have hfixed : ∀ line ∈ ["\"\"\"", "Auto-generated by CrudGen. Do not edit.",
      "from __future__ import annotations"], ∃ front ∈ openings, front.toList <+: line.toList := by
    decide
  simp only [List.forall_mem_cons] at hfixed
  obtain ⟨hquotes, hgenerated, hfuture, -⟩ := hfixed
  unfold Schema.header
  simp only [List.forall_mem_cons]
  exact ⟨Or.inr hquotes, htitle, Or.inr hgenerated, Or.inr hquotes, Or.inl rfl, Or.inr hfuture, Or.inl rfl,
    List.forall_mem_nil _⟩

theorem opens_importLines :
    ∀ line ∈ importLines (describe resource operation), Opens openings line := by
  have hfrom : ∀ {imports : Imports}, (∀ entry ∈ imports, Imports.IsLegible entry) →
      ∀ line ∈ imports.lines, Opens openings line := by
    intro imports hlegible line hline
    obtain ⟨entry, hentry, rfl⟩ := Imports.mem_lines.mp hline
    refine Or.inr ⟨"f", by decide, ?_⟩
    rw [Imports.line_eq (hlegible entry hentry), String.append_assoc, String.append_assoc,
      String.toList_append]
    exact List.IsPrefix.trans (by decide) (List.prefix_append _ _)
  unfold importLines
  rw [List.forall_mem_append, List.forall_mem_cons]
  exact ⟨hfrom fun entry hentry => (isLegible_of_mem_packageImports _ entry hentry).1, Or.inl rfl,
    hfrom fun entry hentry => (isLegible_of_mem_relativeImports operation entry hentry).1⟩

theorem opens_indented {depth : Nat} (hdepth : 0 < depth) (text : String) :
    Opens handlerOpenings (indented depth text) := by
  obtain ⟨depth, rfl⟩ := Nat.exists_eq_succ_of_ne_zero hdepth.ne'
  refine Or.inr ⟨" ", by decide, ?_⟩
  rw [indented, String.toList_append, String.toList_join, List.replicate_succ, List.flatMap_cons,
    List.append_assoc]
  exact List.IsPrefix.trans (by decide) (List.prefix_append _ _)

end Lines

theorem opens_signature (spec : EndpointSpec) (parameters : List String) (result doc : String) :
    ∀ line ∈ signature spec parameters result doc, Opens handlerOpenings line := by
  unfold signature
  simp only [List.cons_append, List.forall_mem_cons, List.forall_mem_append, List.forall_mem_map]
  have hdefinition : Opens handlerOpenings s!"async def {spec.handlerName}(" := by
    rw [String.append_assoc]
    exact Opens.of_prefix (by decide)
  have hresult : Opens handlerOpenings s!") -> {result}:" := by
    rw [String.append_assoc]
    exact Opens.of_prefix (by decide)
  exact ⟨hdefinition, ⟨fun parameter _ => opens_indented one_pos _,
    opens_indented one_pos _, List.forall_mem_nil _⟩, hresult, opens_indented one_pos _,
    List.forall_mem_nil _⟩

theorem opens_notFound (spec : EndpointSpec) (condition : String) :
    ∀ line ∈ notFound spec condition, Opens handlerOpenings line := by
  unfold notFound
  simp only [List.forall_mem_cons]
  exact ⟨opens_indented one_pos _, opens_indented two_pos _, opens_indented three_pos _,
    opens_indented two_pos _, List.forall_mem_nil _⟩

/-- No line of a handler stands at the margin but those of its signature. -/
theorem opens_handler (spec : EndpointSpec) : ∀ line ∈ handler spec, Opens handlerOpenings line := by
  have hone : ∀ text, Opens handlerOpenings (indented 1 text) := opens_indented one_pos
  have htwo : ∀ text, Opens handlerOpenings (indented 2 text) := opens_indented two_pos
  have hif : ∀ (condition : Bool) (text : String),
      ∀ line ∈ (if condition then [indented 1 text] else []), Opens handlerOpenings line :=
    fun _ text => forall_mem_if (List.forall_mem_singleton.mpr (hone text))
  unfold handler
  split
  · simp only [createHandler, List.forall_mem_append, List.forall_mem_cons, hone, List.not_mem_nil,
      false_implies, implies_true, and_self, and_true]
    exact ⟨opens_signature _ _ _ _, ⟨hif _ _, hif _ _⟩, hif _ _⟩
  · simp only [listHandler, List.forall_mem_append, List.forall_mem_cons, hone, htwo, List.not_mem_nil,
      false_implies, implies_true, and_self, and_true]
    exact opens_signature _ _ _ _
  · simp only [getHandler, List.forall_mem_append, List.forall_mem_cons, hone, List.not_mem_nil,
      false_implies, implies_true, and_self, and_true]
    exact ⟨opens_signature _ _ _ _, opens_notFound _ _⟩
  · simp only [updateHandler, List.forall_mem_append, List.forall_mem_cons, hone, List.not_mem_nil,
      false_implies, implies_true, and_self, and_true]
    exact ⟨⟨opens_signature _ _ _ _, hif _ _⟩, opens_notFound _ _⟩
  · simp only [deleteHandler, List.forall_mem_append, List.forall_mem_cons, hone, List.not_mem_nil,
      false_implies, implies_true, and_self, and_true]
    exact ⟨opens_signature _ _ _ _, opens_notFound _ _⟩

/-! ### Constants -/

/-- The names of constants. -/
def constantNames : List String :=
  ["TABLE_NAME", "PRIMARY_KEY", "FILTER_FIELDS", "SEARCH_FIELDS", "ORDER_BY_FIELDS"]

/-- The constants of a module, with their expressions. -/
def constantTable (spec : EndpointSpec) (filters : List String) : List (String × String) :=
  [("TABLE_NAME", "\"" ++ spec.tableName ++ "\""), ("PRIMARY_KEY", "\"" ++ spec.primaryKey ++ "\"")] ++
    if spec.operation = .list then
      [("FILTER_FIELDS", tupleLiteral filters), ("SEARCH_FIELDS", tupleLiteral spec.searchFields),
        ("ORDER_BY_FIELDS", tupleLiteral spec.orderByFields)]
    else []

/-- The line that assigns an expression. -/
def assignment (entry : String × String) : String := entry.1 ++ " = " ++ entry.2

theorem constants_eq_map (spec : EndpointSpec) (filters : List String) :
    constants spec filters = (constantTable spec filters).map assignment := by
  have hopening : ∀ name text : String, name ++ " = " ++ ("\"" ++ text ++ "\"") =
      (name ++ " = \"") ++ text ++ "\"" := by
    intro name text
    have hmark : " = \"" = " = " ++ "\"" := by decide
    simp only [hmark, String.append_assoc]
  rw [constantTable, constants, List.map_append, List.map_cons, List.map_singleton, assignment, assignment,
    hopening, hopening]
  congr 1
  split <;> rfl

theorem constantTable_names (spec : EndpointSpec) (filters : List String) :
    ∀ entry ∈ constantTable spec filters, entry.1 ∈ constantNames := by
  rw [constantTable, List.forall_mem_append]
  exact ⟨by simp [constantNames], forall_mem_if (by simp [constantNames])⟩

theorem constantTable_nodup (spec : EndpointSpec) (filters : List String) :
    ((constantTable spec filters).map Prod.fst).Nodup := by
  rw [constantTable]
  split <;> simp

/-- A constant is assigned the expression of its entry, and nothing else. -/
theorem assigned_map {name : String} (hname : name ∈ constantNames) :
    ∀ {table : List (String × String)}, (∀ entry ∈ table, entry.1 ∈ constantNames) →
      (table.map Prod.fst).Nodup → assigned name (table.map assignment) = (table.lookup name).toList := by
  have hapart : ∀ first ∈ constantNames, ∀ second ∈ constantNames, first ≠ second →
      Apart (first ++ " = ") (second ++ " = ") := by decide +kernel
  intro table
  induction table with
  | nil => exact fun _ _ => rfl
  | cons entry table ih =>
      obtain ⟨other, expression⟩ := entry
      intro hnames hnodup
      rw [List.forall_mem_cons] at hnames
      rw [List.map_cons, List.nodup_cons] at hnodup
      have hrest := ih hnames.2 hnodup.2
      rw [assigned] at hrest ⊢
      by_cases heq : other = name
      · subst heq
        have hbehind : behind? (other ++ " = ") (assignment (other, expression)) = some expression :=
          behind?_append _ _
        have hnone : table.lookup other = none := by
          rw [List.lookup_eq_none_iff]
          intro entry hentry
          rw [bne_iff_ne]
          intro hfirst
          have hmem : entry.1 ∈ table.map Prod.fst := List.mem_map_of_mem hentry
          exact hnodup.1 (hfirst ▸ hmem)
        rw [List.map_cons, List.filterMap_cons_some hbehind, hrest, hnone, List.lookup_cons_self]
        rfl
      · have hbehind : behind? (name ++ " = ") (assignment (other, expression)) = none :=
          behind?_of_prefix (hapart name hname other hnames.1 (Ne.symm heq)) (prefix_append _ expression)
        rw [List.map_cons, List.filterMap_cons_none hbehind, hrest, List.lookup_cons,
          beq_false_of_ne (Ne.symm heq)]

/-- The lines of a module before its constants. -/
def linesBefore (resource : ResourceSpec) (operation : Operation) : List String :=
  Schema.header (title (describe resource operation)) ++
    (importLines (describe resource operation) ++ [""])

/-- The lines of a module behind its constants. -/
def linesBehind (resource : ResourceSpec) (operation : Operation) : List String :=
  ["", ""] ++ (handler (describe resource operation) ++ [""])

section Module

variable (resource : ResourceSpec) (operation : Operation)

theorem moduleLines_eq :
    moduleLines resource operation = linesBefore resource operation ++
      ((constantTable (describe resource operation) (resource.queryFilters.map FieldSpec.name)).map assignment
        ++ linesBehind resource operation) := by
  rw [← constants_eq_map]
  simp only [moduleLines, bodyLines, linesBefore, linesBehind, List.append_assoc, List.cons_append,
    List.nil_append]

theorem opens_linesBefore : ∀ line ∈ linesBefore resource operation, Opens openings line := by
  simp only [linesBefore, List.forall_mem_append, List.forall_mem_singleton]
  exact ⟨opens_header resource operation, opens_importLines resource operation, Or.inl rfl⟩

theorem opens_linesBehind : ∀ line ∈ linesBehind resource operation, Opens handlerOpenings line := by
  simp only [linesBehind, List.cons_append, List.nil_append, List.forall_mem_cons, List.forall_mem_append]
  exact ⟨Or.inl rfl, Or.inl rfl, opens_handler _, Or.inl rfl, List.forall_mem_nil _⟩

/-- A module assigns a constant once, where its constants are, or not at all. -/
theorem assigned_moduleLines {name : String} (hname : name ∈ constantNames) :
    assigned name (moduleLines resource operation) =
      ((constantTable (describe resource operation) (resource.queryFilters.map FieldSpec.name)).lookup
        name).toList := by
  have hne : ∀ other ∈ constantNames, other ++ " = " ≠ "" := by decide
  have hopenings : ∀ other ∈ constantNames, ∀ front ∈ openings, Apart (other ++ " = ") front := by
    decide +kernel
  have hhandler : ∀ other ∈ constantNames, ∀ front ∈ handlerOpenings, Apart (other ++ " = ") front := by
    decide +kernel
  rw [assigned, moduleLines_eq, List.filterMap_append, List.filterMap_append,
    filterMap_behind?_of_opens (hne name hname) (hopenings name hname) (opens_linesBefore _ _),
    filterMap_behind?_of_opens (hne name hname) (hhandler name hname) (opens_linesBehind _ _),
    List.nil_append, List.append_nil]
  exact assigned_map hname (constantTable_names _ _) (constantTable_nodup _ _)

theorem constant?_moduleLines {α : Type} {read : String → Option α} {name expression : String}
    (hname : name ∈ constantNames)
    (hentry : (constantTable (describe resource operation)
      (resource.queryFilters.map FieldSpec.name)).lookup name = some expression) :
    constant? read name (moduleLines resource operation) = read expression := by
  rw [constant?, assigned_moduleLines resource operation hname, hentry]
  rfl

/-- A plain name between quotes is read as it is. -/
theorem text?_quoted {name : String} (h : Naming.IsPlain name) : Code.text? ("\"" ++ name ++ "\"") = some name := by
  have hquote : "\"" = String.singleton '"' := by decide
  rw [hquote, ← textLiteral_of_isOrdinary h.isOrdinary, Code.text?_textLiteral]

theorem constant?_table :
    constant? Code.text? "TABLE_NAME" (moduleLines resource operation) = some resource.tableName := by
  rw [constant?_moduleLines resource operation (by decide) (List.lookup_cons_self ..)]
  exact text?_quoted (Naming.isPlain_tableName resource.name)

theorem constant?_key :
    constant? Code.text? "PRIMARY_KEY" (moduleLines resource operation) = some primaryKey := by
  have hplain : Naming.IsPlain primaryKey := by decide
  rw [constant?_moduleLines resource operation (by decide) rfl]
  exact text?_quoted hplain

/-- The list query filters, searches and orders by the fields that its constants name. -/
theorem constant?_listed :
    constant? Code.tuple? "FILTER_FIELDS" (moduleLines resource .list) =
        some (resource.queryFilters.map FieldSpec.name) ∧
      constant? Code.tuple? "SEARCH_FIELDS" (moduleLines resource .list) =
        some ((resource.fields.filter FieldSpec.searchable).map FieldSpec.name) ∧
      constant? Code.tuple? "ORDER_BY_FIELDS" (moduleLines resource .list) =
        some ((resource.fields.filter isOrderable).map FieldSpec.name) := by
  refine ⟨?_, ?_, ?_⟩
  · rw [constant?_moduleLines resource .list (by decide) rfl, Code.tuple?_tupleLiteral]
  · rw [constant?_moduleLines resource .list (by decide) rfl, Code.tuple?_tupleLiteral]
    rfl
  · rw [constant?_moduleLines resource .list (by decide) rfl, Code.tuple?_tupleLiteral]
    rfl

end Module

end ApiScaffold.Endpoint
