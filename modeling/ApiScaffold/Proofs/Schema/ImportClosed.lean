import Mathlib
import ApiScaffold.Proofs.Config.Query
import ApiScaffold.Proofs.Imports.Sorted
import ApiScaffold.Proofs.Schema.ModelNames

/-! Schema modules are closed: the names that their models use are built in, or the block of imports takes them
from another module. The block gathers what the fields need, whichever models the fields are part of. -/

namespace ApiScaffold

namespace Schema

open Lexing Text

/-! ### Imports -/

/-- The names that need no import. -/
def builtins : List String := ["str", "int", "float", "bool"]

/-- A name is built in, or a block of imports takes it from a module. -/
def Known (imports : Imports) (name : String) : Prop :=
  name ∈ builtins ∨ ∃ module, imports.Provides module name

/-- What the models of every resource need. -/
def fixedBlock : Imports :=
  [("pydantic", ["BaseModel", "ConfigDict", "Field"]), ("typing", ["Literal", "Optional"]), ("uuid", ["UUID"])]

/-- A module and a name that can be read in a line of imports. -/
def IsLegibleImport (taken : String × String) : Prop :=
  ' ' ∉ taken.1.toList ∧ '\n' ∉ taken.1.toList ∧ Naming.IsPlain taken.2

instance (taken : String × String) : Decidable (IsLegibleImport taken) := inferInstanceAs (Decidable (_ ∧ _))

section Imports

variable {resource : ResourceSpec} {resolved : Mappings} {module name : String}

theorem importBlock_eq (mapping : FieldMapping) :
    mapping.importBlock = Imports.mergeAll [mapping.imports.map fun taken => (taken.1, [taken.2])] := by
  change _ = (mapping.imports.map fun taken => (taken.1, [taken.2])).foldl _ []
  rw [List.foldl_map]
  rfl

theorem provides_importBlock {mapping : FieldMapping} :
    mapping.importBlock.Provides module name ↔ (module, name) ∈ mapping.imports := by
  rw [importBlock_eq, Imports.provides_mergeAll]
  simp [Imports.Provides, Prod.ext_iff]

/-- A module imports what all models need, the type of its timestamps, and what its fields need. -/
theorem provides_moduleImports :
    (moduleImports resource resolved).Provides module name ↔
      fixedBlock.Provides module name ∨
      (resource.timestamps.names ≠ [] ∧ (module, name) = ("datetime", "datetime")) ∨
      ∃ entry ∈ resolved, (module, name) ∈ entry.2.imports := by
  rw [moduleImports, Imports.provides_mergeAll, List.exists_mem_cons_iff, List.exists_mem_cons_iff]
  refine or_congr Iff.rfl (or_congr ?_ ?_)
  · cases htimes : resource.timestamps.names with
    | nil => simp [Imports.Provides]
    | cons first rest => simp [Imports.Provides, eq_comm]
  · constructor
    · rintro ⟨block, hblock, hname⟩
      obtain ⟨entry, hentry, rfl⟩ := List.mem_map.mp hblock
      exact ⟨entry, hentry, provides_importBlock.mp hname⟩
    · rintro ⟨entry, hentry, hname⟩
      exact ⟨_, List.mem_map_of_mem hentry, provides_importBlock.mpr hname⟩

theorem exists_field_of_mem_mappings (h : mappings resource = .ok resolved) {entry : String × FieldMapping}
    (hentry : entry ∈ resolved) : ∃ field ∈ resource.fields, mapField field = .ok entry.2 := by
  obtain ⟨entries, hentries, rfl⟩ := Outcome.map_eq_ok.mp h
  obtain ⟨field, hfield, hmade⟩ := Outcome.exists_of_mem_results hentries (Keyed.mem_of_mem_ofList hentry)
  obtain ⟨mapping, hmapping, rfl⟩ := Outcome.map_eq_ok.mp hmade
  exact ⟨field, hfield, hmapping⟩

theorem mapField_imports {field : FieldSpec} {mapping : FieldMapping} (h : mapField field = .ok mapping) :
    mapping.imports = (typeEntry field.type).imports := by
  unfold mapField at h
  split at h
  · cases h
  · obtain ⟨bounds, -, hmapping⟩ := Outcome.bind_eq_ok.mp h
    rw [← Except.ok.inj hmapping]

theorem isLegibleImport_of_provides (h : mappings resource = .ok resolved)
    (hprovides : (moduleImports resource resolved).Provides module name) : IsLegibleImport (module, name) := by
  have hfixed : ∀ entry ∈ fixedBlock, ∀ name ∈ entry.2, IsLegibleImport (entry.1, name) := by decide
  have htypes : ∀ type, ∀ taken ∈ (typeEntry type).imports, IsLegibleImport taken := by
    intro type
    cases type <;> decide
  rcases provides_moduleImports.mp hprovides with
    ⟨entry, hentry, rfl, hname⟩ | ⟨-, heq⟩ | ⟨entry, hentry, hname⟩
  · exact hfixed entry hentry name hname
  · rw [heq]
    decide
  · obtain ⟨field, -, hmapping⟩ := exists_field_of_mem_mappings h hentry
    rw [mapField_imports hmapping] at hname
    exact htypes field.type _ hname

/-- No module is imported without names. -/
theorem names_ne_nil : ∀ entry ∈ moduleImports resource resolved, entry.2 ≠ [] := by
  have hblock : ∀ mapping : FieldMapping, ∀ entry ∈ mapping.importBlock, entry.2 ≠ [] := by
    intro mapping entry hentry
    rw [importBlock_eq] at hentry
    refine (Imports.comesFrom_mergeAll ?_ entry hentry).1
    exact List.forall_mem_map.mpr fun _ _ => List.cons_ne_nil _ _
  intro entry hentry
  rw [moduleImports, ← Imports.mergeAll_flatten] at hentry
  refine (Imports.comesFrom_mergeAll (fun part hpart => ?_) entry hentry).1
  obtain ⟨block, hblock', hmem⟩ := List.mem_flatten.mp hpart
  rcases List.mem_cons.mp hblock' with rfl | hrest
  · have hfixed : ∀ entry ∈ fixedBlock, entry.2 ≠ [] := by decide
    exact hfixed part hmem
  · rcases List.mem_cons.mp hrest with rfl | hfields
    · split at hmem
      · cases hmem
      · rw [List.mem_singleton.mp hmem]
        exact List.cons_ne_nil _ _
    · obtain ⟨mapped, -, rfl⟩ := List.mem_map.mp hfields
      exact hblock mapped.2 part hmem

theorem isLegible_of_mem_moduleImports (h : mappings resource = .ok resolved) :
    ∀ entry ∈ moduleImports resource resolved, Imports.IsLegible entry := by
  intro entry hentry
  have hall : ∀ name ∈ entry.2, IsLegibleImport (entry.1, name) := fun name hname =>
    isLegibleImport_of_provides h ⟨entry, hentry, rfl, hname⟩
  obtain ⟨name, hname⟩ := List.exists_mem_of_ne_nil _ (names_ne_nil entry hentry)
  obtain ⟨hblank, hfeed, -⟩ := hall name hname
  exact ⟨hblank, hfeed, names_ne_nil entry hentry, fun other hother => (hall other hother).2.2⟩

theorem moduleImports_ne_nil : moduleImports resource resolved ≠ [] := by
  have hbase : (moduleImports resource resolved).Provides "uuid" "UUID" :=
    provides_moduleImports.mpr (Or.inl (by decide))
  obtain ⟨entry, hentry, -⟩ := hbase
  exact List.ne_nil_of_mem hentry

end Imports

/-! ### Attributes -/

/-- The names of an annotation are words, and known. -/
def IsKnown (imports : Imports) (a : Annotation) : Prop := ∀ name ∈ a.names, IsWord name ∧ Known imports name

section Attributes

variable {resource : ResourceSpec} {resolved : Mappings}

theorem known_of_fixed {name : String} (h : ∃ module, fixedBlock.Provides module name) :
    Known (moduleImports resource resolved) name :=
  Or.inr (h.imp fun _ hprovides => provides_moduleImports.mpr (Or.inl hprovides))

theorem IsKnown.optional {a : Annotation} (h : IsKnown (moduleImports resource resolved) a) :
    IsKnown (moduleImports resource resolved) (.optional a) :=
  List.forall_mem_cons.mpr ⟨⟨by decide, known_of_fixed ⟨"typing", by decide⟩⟩, h⟩

theorem isKnown_builtin {name : String} (h : name ∈ builtins) :
    IsKnown (moduleImports resource resolved) (.named name) := by
  have hwords : ∀ name ∈ builtins, IsWord name := by decide
  exact List.forall_mem_singleton.mpr ⟨hwords name h, Or.inl h⟩

/-- A choice is annotated with its texts, and the name in front of them is that of its type. -/
theorem names_annotationOf (field : FieldSpec) :
    (annotationOf field).names = (typeEntry field.type).typing.names := by
  rw [annotationOf]
  split
  · rename_i hchoice
    rw [hchoice]
    rfl
  · rfl

/-- Types import the names of their annotations that are not built in. -/
theorem names_typing (type : FieldType) : ∀ name ∈ (typeEntry type).typing.names,
    IsWord name ∧ (name ∈ builtins ∨ ∃ module, (module, name) ∈ (typeEntry type).imports) := by
  have hnames : ∀ name ∈ (typeEntry type).typing.names,
      IsWord name ∧ (name ∈ builtins ∨ name ∈ (typeEntry type).imports.map (·.2)) := by
    cases type <;> decide
  intro name hname
  refine ⟨(hnames name hname).1, (hnames name hname).2.imp_right fun hmem => ?_⟩
  obtain ⟨taken, htaken, rfl⟩ := List.mem_map.mp hmem
  exact ⟨taken.1, htaken⟩

theorem isKnown_annotationIn (hnodup : resource.fieldNames.Nodup) (h : mappings resource = .ok resolved)
    {field : FieldSpec} (hfield : field ∈ resource.fields) :
    IsKnown (moduleImports resource resolved) (annotationIn resolved field.name) := by
  obtain ⟨mapping, hlookup, hmapping⟩ := lookup_mappings hnodup h hfield
  rw [annotationIn_eq hnodup h hfield]
  intro name hname
  rw [names_annotationOf] at hname
  obtain ⟨hword, hknown⟩ := names_typing field.type name hname
  refine ⟨hword, hknown.imp_right fun ⟨module, htaken⟩ => ⟨module, ?_⟩⟩
  refine provides_moduleImports.mpr (Or.inr (Or.inr ⟨_, mem_of_lookup hlookup, ?_⟩))
  rwa [mapField_imports hmapping]

/-- What holds of the attributes of fields and of those that stand beside them holds of all attributes. -/
theorem forall_attributes {motive : Attribute → Prop} (hkey : motive ⟨primaryKey, .named "UUID", .unset⟩)
    (htime : ∀ name ∈ resource.timestamps.names, motive ⟨name, .named "datetime", .unset⟩)
    (hquery : ∀ a ∈ queryAttributes, motive a)
    (hfield : ∀ field ∈ resource.fields, ∀ default, motive (attributeOf resolved field default))
    (hfilter : ∀ field ∈ resource.fields,
      motive ⟨field.name, .optional (filterTyping resolved field), .plain .null⟩) :
    ∀ model ∈ models resource resolved, ∀ a ∈ model.attributes, motive a := by
  have hstored : ∀ field ∈ resource.storedFields, field ∈ resource.fields := fun field hmem =>
    (ResourceSpec.mem_storedFields.mp hmem).1
  have hclient : ∀ field ∈ resource.clientFields, field ∈ resource.fields := fun field hmem =>
    hstored field (resource.clientFields_subset hmem)
  simp only [models, List.forall_mem_cons, recordModel, createModel, updateModel, queryModel,
    List.forall_mem_append, List.forall_mem_map]
  refine ⟨⟨⟨hkey, fun field hmem => hfield field (hstored field hmem) _⟩, htime⟩,
    fun field hmem => hfield field (hclient field hmem) _,
    fun field hmem => hfield field (hclient field hmem) _,
    ⟨hquery, fun field hmem => hfilter field (filtersFrom_subset _ _ hmem)⟩, List.forall_mem_nil _⟩

end Attributes

/-! ### Modules -/

section Modules

variable {config : ApiConfig} {resource : ResourceSpec} {resolved : Mappings}

theorem attributes_known (h : config.Accepted) (hresource : resource ∈ config.resources)
    (hresolved : mappings resource = .ok resolved) :
    ∀ model ∈ models resource resolved, ∀ a ∈ model.attributes,
      Naming.isNameLike a.name = true ∧ IsKnown (moduleImports resource resolved) a.typing := by
  have hstr : IsKnown (moduleImports resource resolved) (.named "str") := isKnown_builtin (by decide)
  have hnames : ∀ field ∈ resource.fields, Naming.isNameLike field.name = true := by
    intro field hfield
    have hidentifier := h.isIdentifier_fieldName hresource (List.mem_map_of_mem hfield)
    rw [Naming.isIdentifier, Bool.and_eq_true] at hidentifier
    exact hidentifier.1
  have htypes : ∀ field ∈ resource.fields,
      IsKnown (moduleImports resource resolved) (annotationIn resolved field.name) := fun field hfield =>
    isKnown_annotationIn (h.fieldNames_nodup hresource) hresolved hfield
  apply forall_attributes
  · refine ⟨rfl, List.forall_mem_singleton.mpr ⟨by decide, known_of_fixed ⟨"uuid", by decide⟩⟩⟩
  · intro name hname
    have htimes : ∀ policy : TimestampPolicy, ∀ name ∈ policy.names, Naming.isNameLike name = true := by
      rintro ⟨_ | _, _ | _⟩ <;> decide
    have himported : (moduleImports resource resolved).Provides "datetime" "datetime" :=
      provides_moduleImports.mpr (Or.inr (Or.inl ⟨List.ne_nil_of_mem hname, rfl⟩))
    exact ⟨htimes _ name hname, List.forall_mem_singleton.mpr ⟨by decide, Or.inr ⟨_, himported⟩⟩⟩
  · have hint : IsKnown (moduleImports resource resolved) (.named "int") := isKnown_builtin (by decide)
    have hchoice : IsKnown (moduleImports resource resolved) (.choice ["asc", "desc"]) :=
      List.forall_mem_singleton.mpr ⟨by decide, known_of_fixed ⟨"typing", by decide⟩⟩
    simp only [queryAttributes, List.forall_mem_cons]
    exact ⟨⟨by decide, hint⟩, ⟨by decide, hint⟩, ⟨by decide, hstr.optional⟩, ⟨by decide, hchoice⟩,
      ⟨by decide, hstr.optional⟩, List.forall_mem_nil _⟩
  · intro field hfield default
    cases default with
    | none => exact ⟨hnames field hfield, htypes field hfield⟩
    | some value => exact ⟨hnames field hfield, (htypes field hfield).optional⟩
  · intro field hfield
    refine ⟨hnames field hfield, IsKnown.optional ?_⟩
    rw [filterTyping]
    split
    · exact isKnown_builtin (by decide)
    · split
      · exact htypes field hfield
      · exact hstr

/-- The models of an accepted resource can be read, and their names are known. -/
theorem models_known (h : config.Accepted) (hresource : resource ∈ config.resources)
    (hresolved : mappings resource = .ok resolved) :
    ∀ model ∈ models resource resolved,
      model.IsReadable ∧ ∀ name ∈ model.names, Known (moduleImports resource resolved) name := by
  intro model hmodel
  have hattributes := attributes_known h hresource hresolved model hmodel
  have hidentifier : Naming.isIdentifier resource.name = true :=
    h.admitted.identifiers _ (List.mem_map_of_mem hresource)
  have hclass := Naming.isPlain_className resource.name
  have hdoc : ∀ front behind : String, front.toList.all isOrdinary = true →
      behind.toList.all isOrdinary = true → Passes (front ++ quoted resource.name ++ behind).toList := by
    intro front behind hfront hbehind
    rw [String.toList_append, String.toList_append]
    exact ((passes_of_isOrdinary (List.all_eq_true.mp hfront)).append (passes_quoted hidentifier)).append
      (passes_of_isOrdinary (List.all_eq_true.mp hbehind))
  have hshape : Naming.IsPlain model.name ∧ Passes model.doc.toList ∧
      ∀ settings ∈ model.settings, settings ∈ settingTexts := by
    have hforbid : ∀ settings ∈ some "extra=\"forbid\"", settings ∈ settingTexts := by decide
    revert hmodel
    simp only [models, List.mem_cons, List.not_mem_nil, or_false]
    rintro (rfl | rfl | rfl | rfl)
    · refine ⟨hclass, hdoc "Full record of the " " resource." rfl rfl, ?_⟩
      rintro settings ⟨⟩
      decide
    · refine ⟨(show Naming.IsPlain "Create" by decide).append hclass, ?_, hforbid⟩
      exact hdoc "Request body for creating a " " record." rfl rfl
    · refine ⟨(show Naming.IsPlain "Update" by decide).append hclass, ?_, hforbid⟩
      exact hdoc "Request body for updating a " " record. All attributes optional." rfl rfl
    · refine ⟨hclass.append (by decide), hdoc "Query parameters for listing " " records." rfl rfl, ?_⟩
      rintro settings ⟨⟩
  have hfinite : ∀ a ∈ model.attributes, ∀ s ∈ a.setting.scalars, s.isFinite = true := by
    intro a ha s hs
    have hstated := statesScalar_of_mem_models hmodel ha s hs
    cases s with
    | number n => exact h.isFinite_of_statesScalar hresource hresolved hstated
    | null => rfl
    | bool b => rfl
    | text s => rfl
  refine ⟨⟨hshape.1, hshape.2.1, hshape.2.2, fun a ha => ?_⟩, ?_⟩
  · obtain ⟨hname, htyping⟩ := hattributes a ha
    exact ⟨hname, fun name hmem => (htyping name hmem).1, hfinite a ha⟩
  · rw [Model.names, List.forall_mem_append, List.forall_mem_flatMap]
    refine ⟨?_, fun a ha name hname => ((hattributes a ha).2 name hname).2⟩
    have hbase : ∀ name ∈ ["BaseModel", "ConfigDict", "Field"], fixedBlock.Provides "pydantic" name := by decide
    exact fun name hname => known_of_fixed ⟨"pydantic", hbase name hname⟩

end Modules

/-- The text of a module that is closed. The lines of its block of imports take names from modules; modules and
names ascend, so each module has one line. The lines of its models use only names that are built in or that the
block takes. -/
structure IsImportClosed (resource : ResourceSpec) (content block : String) (groups : List (List String))
    (imported : Imports) : Prop where
  content_eq : content = joinLines
    (header s!"Validation schemas for resource: {resource.name}" ++ [block, "", ""] ++ spaced groups ++
      exportLines (Naming.schemaNames resource.name).toList)
  block_read : (linesOf block).map Imports.read? = imported.map some
  sorted : imported.IsSorted
  closed : ∀ lines ∈ groups, ∀ line ∈ lines,
    ∃ names, usedNames? line = some names ∧ ∀ name ∈ names, Known imported name

/-- **Schema modules are closed under imports.** A schema module of an accepted configuration is a block of
imports and the four models of its resource; all names that stand outside of literals in the annotations, the
bases and the calls of the models are built in or imported. -/
theorem imports_closed {config : ApiConfig} (h : config.Accepted) {resource : ResourceSpec}
    (hresource : resource ∈ config.resources) {made : Artifact} (hmade : artifact resource = .ok made) :
    ∃ resolved block groups imported, mappings resource = .ok resolved ∧
      (models resource resolved).mapM Model.lines = .ok groups ∧
      IsImportClosed resource made.content block groups imported := by
  obtain ⟨resolved, hresolved, hmade⟩ := Outcome.bind_eq_ok.mp hmade
  obtain ⟨content, hcontent, hmade⟩ := Outcome.bind_eq_ok.mp hmade
  have hresolved := Outcome.mapError_eq_ok.mp hresolved
  obtain ⟨groups, hgroups, hcontent⟩ := Outcome.bind_eq_ok.mp (Outcome.mapError_eq_ok.mp hcontent)
  have hmade : made.content = content := by
    unfold named at hmade
    split at hmade
    · cases hmade
    · rw [← Except.ok.inj hmade]
  have hlegible := isLegible_of_mem_moduleImports hresolved
  refine ⟨resolved, (moduleImports resource resolved).block, groups, (moduleImports resource resolved).sorted,
    hresolved, hgroups, ?_⟩
  constructor
  · rw [hmade]
    exact (Except.ok.inj hcontent).symm
  · exact Imports.read?_linesOf_block hlegible moduleImports_ne_nil
  · exact (Imports.isSet_mergeAll _).isSorted names_ne_nil
  · intro lines hlines line hline
    obtain ⟨model, hmodel, hwritten⟩ := Outcome.exists_of_mem_results hgroups hlines
    obtain ⟨hreadable, hknown⟩ := models_known h hresource hresolved model hmodel
    obtain ⟨names, hused, hnames⟩ := hreadable.exists_usedNames hwritten line hline
    refine ⟨names, hused, fun name hname => (hknown name (hnames name hname)).imp_right ?_⟩
    exact fun ⟨module, hprovides⟩ => ⟨module, Imports.provides_sorted.mpr hprovides⟩

/-- The schema module of a post. -/
theorem imports_closed_blog :
    ∃ made, artifact Blog.post = .ok made ∧
      ∃ resolved block groups imported, mappings Blog.post = .ok resolved ∧
        (models Blog.post resolved).mapM Model.lines = .ok groups ∧
        IsImportClosed Blog.post made.content block groups imported := by
  have hok : (artifact Blog.post).isOk = true := by decide +kernel
  obtain ⟨made, hmade⟩ := Outcome.exists_eq_ok hok
  exact ⟨made, hmade, imports_closed Blog.accepted (by decide) hmade⟩

end Schema

end ApiScaffold
