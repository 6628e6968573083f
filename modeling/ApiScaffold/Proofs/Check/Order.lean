import Mathlib
import ApiScaffold.Proofs.Check.Coherence

/-! The order of declarations. What is asked of a configuration does not depend on the order in which its
resources, their fields and their indexes are declared, and neither does it whether the checks can be
finished. Only which of several declarations a message is about does. -/

namespace ApiScaffold

open Check

/-! ### Resources -/

/-- A resource with its fields and its indexes in another order. -/
structure ResourceSpec.Rearranged (resource other : ResourceSpec) : Prop where
  name : other.name = resource.name
  description : other.description = resource.description
  timestamps : other.timestamps = resource.timestamps
  fields : resource.fields.Perm other.fields
  indexes : resource.indexes.Perm other.indexes

namespace ResourceSpec.Rearranged

variable {resource other : ResourceSpec}

theorem symm (h : resource.Rearranged other) : other.Rearranged resource :=
  ⟨h.name.symm, h.description.symm, h.timestamps.symm, h.fields.symm, h.indexes.symm⟩

theorem tableName (h : resource.Rearranged other) : other.tableName = resource.tableName := by
  rw [ResourceSpec.tableName, ResourceSpec.tableName, h.name]

theorem fieldNames (h : resource.Rearranged other) : resource.fieldNames.Perm other.fieldNames :=
  h.fields.map FieldSpec.name

theorem place (h : resource.Rearranged other) (field : FieldSpec) :
    Check.place other field = Check.place resource field := by
  rw [Check.place, Check.place, h.name]

theorem indexName (h : resource.Rearranged other) (index : IndexSpec) :
    Check.indexName other index = Check.indexName resource index := by
  rw [Check.indexName, Check.indexName, h.tableName]

theorem columnNames (h : resource.Rearranged other) :
    (Check.columnNames resource).Perm (Check.columnNames other) := by
  have hsynthetic : other.syntheticNames = resource.syntheticNames := by
    rw [ResourceSpec.syntheticNames, ResourceSpec.syntheticNames, h.timestamps]
  rw [Check.columnNames, Check.columnNames, hsynthetic]
  exact h.fieldNames.append_right _

theorem coherent (h : resource.Rearranged other) (hcoherent : resource.Coherent) : other.Coherent where
  identifier := h.name ▸ hcoherent.identifier
  fieldNames_nodup := h.fieldNames.nodup_iff.mp hcoherent.fieldNames_nodup
  fieldNames := fun name hname => hcoherent.fieldNames name (h.fieldNames.mem_iff.mpr hname)
  choices := fun field hfield =>
    h.place field ▸ hcoherent.choices field (h.fields.mem_iff.mpr hfield)
  columns := fun index hindex name hname =>
    h.columnNames.mem_iff.mp (hcoherent.columns index (h.indexes.mem_iff.mpr hindex) name hname)
  bounds := fun field hfield => h.place field ▸ hcoherent.bounds field (h.fields.mem_iff.mpr hfield)
  defaults := fun field hfield =>
    h.place field ▸ hcoherent.defaults field (h.fields.mem_iff.mpr hfield)

end ResourceSpec.Rearranged

/-! ### Configurations -/

/-- A configuration with its resources in another order, and in each of them the fields and the indexes. -/
structure ApiConfig.Rearranged (config other : ApiConfig) : Prop where
  name : other.name = config.name
  version : other.version = config.version
  description : other.description = config.description
  database : other.database = config.database
  resources : ∃ reordered, config.resources.Perm reordered ∧
    List.Forall₂ ResourceSpec.Rearranged reordered other.resources

namespace ApiConfig.Rearranged

variable {config other : ApiConfig}

theorem symm (h : config.Rearranged other) : other.Rearranged config := by
  obtain ⟨reordered, hperm, hrearranged⟩ := h.resources
  have hback : List.Forall₂ ResourceSpec.Rearranged other.resources reordered :=
    (hrearranged.imp fun _ _ hsame => hsame.symm).flip
  have hswap : Relation.Comp List.Perm (List.Forall₂ ResourceSpec.Rearranged) other.resources
      config.resources := by
    rw [← List.forall₂_comp_perm_eq_perm_comp_forall₂]
    exact ⟨reordered, hback, hperm.symm⟩
  exact ⟨h.name.symm, h.version.symm, h.description.symm, h.database.symm, hswap⟩

theorem exists_resource (h : config.Rearranged other) {resource : ResourceSpec}
    (hresource : resource ∈ config.resources) :
    ∃ moved ∈ other.resources, resource.Rearranged moved := by
  obtain ⟨reordered, hperm, hrearranged⟩ := h.resources
  exact exists_of_mem_forall₂ hrearranged (hperm.mem_iff.mp hresource)

/-- What a rearranged resource keeps, a rearranged configuration has in another order. -/
theorem map_perm {α : Type} (h : config.Rearranged other) {f : ResourceSpec → α}
    (hkept : ∀ resource moved, ResourceSpec.Rearranged resource moved → f moved = f resource) :
    (config.resources.map f).Perm (other.resources.map f) := by
  obtain ⟨reordered, hperm, hrearranged⟩ := h.resources
  rw [map_eq_map_of_forall₂ hrearranged fun resource _ moved hmoved => hkept resource moved hmoved]
  exact hperm.map f

theorem offers (h : config.Rearranged other) {target : RelationTarget} (ht : config.Offers target) :
    other.Offers target := by
  obtain ⟨owner, howner, hname, hfield⟩ := ht
  obtain ⟨moved, hmem, hmoved⟩ := h.exists_resource howner
  exact ⟨moved, hmem, hmoved.name.trans hname, hfield.imp_right hmoved.fieldNames.mem_iff.mp⟩

theorem coherent (h : config.Rearranged other) (hcoherent : config.Coherent) : other.Coherent where
  resources := by
    intro moved hmem
    obtain ⟨resource, hresource, hback⟩ := h.symm.exists_resource hmem
    exact hback.symm.coherent (hcoherent.resources resource hresource)
  names_nodup := (h.map_perm fun _ _ hmoved => hmoved.name).nodup_iff.mp hcoherent.names_nodup
  tables_nodup := (h.map_perm fun _ _ hmoved => hmoved.tableName).nodup_iff.mp hcoherent.tables_nodup
  relations := by
    intro moved hmem field hfield hrelation
    obtain ⟨resource, hresource, hback⟩ := h.symm.exists_resource hmem
    obtain ⟨target, htarget, hoffers⟩ :=
      hcoherent.relations resource hresource field (hback.fields.mem_iff.mp hfield) hrelation
    exact ⟨target, htarget, h.offers hoffers⟩
  indexNames := by
    intro moved hmem index hindex moved' hmem' index' hindex' hnames
    obtain ⟨resource, hresource, hback⟩ := h.symm.exists_resource hmem
    obtain ⟨resource', hresource', hback'⟩ := h.symm.exists_resource hmem'
    rw [← hback.indexName, ← hback'.indexName] at hnames
    rw [← hback.tableName, ← hback'.tableName]
    exact hcoherent.indexNames resource hresource index (hback.indexes.mem_iff.mp hindex) resource'
      hresource' index' (hback'.indexes.mem_iff.mp hindex') hnames

theorem checkable (h : config.Rearranged other) (hcheckable : config.Checkable) : other.Checkable := by
  intro moved hmem field hfield
  obtain ⟨resource, hresource, hback⟩ := h.symm.exists_resource hmem
  exact hcheckable resource hresource field (hback.fields.mem_iff.mp hfield)

theorem accepted_iff (h : config.Rearranged other) : config.Accepted ↔ other.Accepted := by
  rw [accepted_iff_coherent, accepted_iff_coherent]
  exact ⟨h.coherent, h.symm.coherent⟩

end ApiConfig.Rearranged

theorem ApiConfig.accepted_iff_hasErrors {config : ApiConfig} {report : Report}
    (h : config.report = .ok report) : config.Accepted ↔ report.hasErrors = false := by
  constructor
  · rintro ⟨found, hfound, hnone⟩
    exact Except.ok.inj (h.symm.trans hfound) ▸ hnone
  · exact fun hnone => ⟨report, h, hnone⟩

/-- **The verdict does not depend on the order of declarations.** Configurations that differ in it can both
be checked or both not, and if they can, they both have errors or both have none. -/
theorem ApiConfig.verdict_rearranged {config other : ApiConfig} (h : config.Rearranged other) :
    ((∃ report, config.report = .ok report) ↔ ∃ report, other.report = .ok report) ∧
      ∀ report otherReport, config.report = .ok report → other.report = .ok otherReport →
        report.hasErrors = otherReport.hasErrors := by
  refine ⟨?_, fun report otherReport hreport hother => ?_⟩
  · rw [exists_report_iff, exists_report_iff]
    exact ⟨h.checkable, h.symm.checkable⟩
  · have hfine : report.hasErrors = false ↔ otherReport.hasErrors = false := by
      rw [← accepted_iff_hasErrors hreport, ← accepted_iff_hasErrors hother]
      exact h.accepted_iff
    rw [Bool.eq_iff_iff, ← not_iff_not, Bool.not_eq_true, Bool.not_eq_true]
    exact hfine

namespace Blog

/-- The blog with its posts first, and the fields of the posts from the last to the first. -/
def turned : ApiConfig :=
  { config with resources := [{ post with fields := post.fields.reverse }, author] }

/-- Turned round, the blog is checked without errors as well. -/
theorem verdict_turned :
    config.Rearranged turned ∧ ∃ report turnedReport, config.report = .ok report ∧
      turned.report = .ok turnedReport ∧ report.hasErrors = false ∧ turnedReport.hasErrors = false := by
  have hpost : post.Rearranged { post with fields := post.fields.reverse } :=
    ⟨rfl, rfl, rfl, (List.reverse_perm _).symm, List.Perm.refl _⟩
  have hauthor : author.Rearranged author := ⟨rfl, rfl, rfl, List.Perm.refl _, List.Perm.refl _⟩
  have hrearranged : config.Rearranged turned :=
    ⟨rfl, rfl, rfl, rfl, [post, author], List.Perm.swap _ _ _, .cons hpost (.cons hauthor .nil)⟩
  obtain ⟨hreports, hverdict⟩ := ApiConfig.verdict_rearranged hrearranged
  obtain ⟨report, hreport, hfine⟩ := accepted
  obtain ⟨turnedReport, hturned⟩ := hreports.mp ⟨report, hreport⟩
  exact ⟨hrearranged, report, turnedReport, hreport, hturned, hfine,
    (hverdict report turnedReport hreport hturned).symm.trans hfine⟩

end Blog

end ApiScaffold
