import Mathlib
import ApiScaffold.Proofs.Check.Accepted

/-! What the checks of names guarantee: the names of resources are identifiers and lead to tables of
different names, and the names of the fields of a resource are identifiers that occur once. -/

namespace ApiScaffold

namespace Check

/-! ### Resources -/

/-- Names of resources that go together with names and tables that are there already. -/
structure Admitted (seen tables names : List String) : Prop where
  fresh : ∀ name ∈ names, name ∉ seen
  nodup : names.Nodup
  identifiers : ∀ name ∈ names, Naming.isIdentifier name = true
  tables_fresh : ∀ name ∈ names, Naming.tableName name ∉ tables
  tables_nodup : (names.map Naming.tableName).Nodup

theorem Admitted.cons {seen tables names : List String} {name : String} (hfresh : name ∉ seen)
    (hidentifier : Naming.isIdentifier name = true) (htable : Naming.tableName name ∉ tables)
    (h : Admitted (name :: seen) (Naming.tableName name :: tables) names) :
    Admitted seen tables (name :: names) where
  fresh := by
    rw [List.forall_mem_cons]
    exact ⟨hfresh, fun other hother hseen => h.fresh other hother (List.mem_cons_of_mem _ hseen)⟩
  nodup := by
    rw [List.nodup_cons]
    exact ⟨fun hmem => h.fresh name hmem List.mem_cons_self, h.nodup⟩
  identifiers := by
    rw [List.forall_mem_cons]
    exact ⟨hidentifier, h.identifiers⟩
  tables_fresh := by
    rw [List.forall_mem_cons]
    exact ⟨htable,
      fun other hother htaken => h.tables_fresh other hother (List.mem_cons_of_mem _ htaken)⟩
  tables_nodup := by
    rw [List.map_cons, List.nodup_cons]
    refine ⟨fun hmem => ?_, h.tables_nodup⟩
    obtain ⟨other, hother, heq⟩ := List.mem_map.mp hmem
    exact h.tables_fresh other hother (heq ▸ List.mem_cons_self)

theorem admitted_of_clean {seen : List String} {tables : List (String × String)}
    {names : List String} (h : Clean (resourceNamesFrom seen tables names)) :
    Admitted seen (tables.map (·.1)) names := by
  induction names generalizing seen tables with
  | nil => constructor <;> simp
  | cons name rest ih =>
      rw [resourceNamesFrom] at h
      split at h
      · exact absurd h (not_clean_cons rfl)
      · rename_i hfresh
        split at h
        · exact absurd h (not_clean_cons rfl)
        · rename_i hidentifier
          dsimp only at h
          split at h
          · exact absurd h (not_clean_cons rfl)
          · rename_i hlookup
            have hrest := ih (clean_append.mp h).2
            refine Admitted.cons (by simpa using hfresh) (by simpa using hidentifier) ?_ hrest
            intro hmem
            obtain ⟨entry, hentry, heq⟩ := List.mem_map.mp hmem
            rw [List.lookup_eq_none_iff] at hlookup
            exact absurd heq.symm (by simpa using hlookup entry hentry)

/-! ### Fields -/

theorem fieldNames_of_clean {resource : String} {seen : List String} {fields : List FieldSpec}
    (h : Clean (fieldNamesFrom resource seen fields)) :
    (∀ field ∈ fields, field.name ∉ seen) ∧ (fields.map FieldSpec.name).Nodup ∧
      ∀ field ∈ fields, isFieldName field.name = true := by
  induction fields generalizing seen with
  | nil => simp
  | cons field rest ih =>
      rw [fieldNamesFrom] at h
      split at h
      · exact absurd h (not_clean_cons rfl)
      · rename_i hfresh
        split at h
        · exact absurd h (not_clean_cons rfl)
        · rename_i hname
          obtain ⟨hothers, hnodup, hnames⟩ := ih (clean_append.mp h).2
          refine ⟨?_, ?_, ?_⟩
          · rw [List.forall_mem_cons]
            exact ⟨by simpa using hfresh,
              fun other hother hseen => hothers other hother (List.mem_cons_of_mem _ hseen)⟩
          · rw [List.map_cons, List.nodup_cons]
            refine ⟨fun hmem => ?_, hnodup⟩
            obtain ⟨other, hother, heq⟩ := List.mem_map.mp hmem
            exact hothers other hother (heq ▸ List.mem_cons_self)
          · rw [List.forall_mem_cons]
            exact ⟨by simpa using hname, hnames⟩

end Check

namespace ApiConfig.Accepted

variable {config : ApiConfig}

theorem admitted (h : config.Accepted) : Check.Admitted [] [] config.resourceNames :=
  Check.admitted_of_clean h.resourceNames

theorem resourceNames_nodup (h : config.Accepted) : config.resourceNames.Nodup := h.admitted.nodup

/-- Different resources have different tables. -/
theorem tableNames_nodup (h : config.Accepted) :
    (config.resources.map ResourceSpec.tableName).Nodup := by
  have htables := h.admitted.tables_nodup
  rw [ApiConfig.resourceNames, List.map_map] at htables
  exact htables

theorem fieldNames_nodup (h : config.Accepted) {resource : ResourceSpec}
    (hresource : resource ∈ config.resources) : resource.fieldNames.Nodup :=
  (Check.fieldNames_of_clean (Check.clean_flatMap.mp h.fieldNames resource hresource)).2.1

theorem isFieldName (h : config.Accepted) {resource : ResourceSpec}
    (hresource : resource ∈ config.resources) {name : String} (hname : name ∈ resource.fieldNames) :
    Check.isFieldName name = true := by
  have hnames :=
    (Check.fieldNames_of_clean (Check.clean_flatMap.mp h.fieldNames resource hresource)).2.2
  obtain ⟨field, hfield, rfl⟩ := List.mem_map.mp hname
  exact hnames field hfield

theorem isIdentifier_fieldName (h : config.Accepted) {resource : ResourceSpec}
    (hresource : resource ∈ config.resources) {name : String} (hname : name ∈ resource.fieldNames) :
    Naming.isIdentifier name = true := by
  have hfieldName := h.isFieldName hresource hname
  rw [Check.isFieldName, Bool.and_eq_true] at hfieldName
  exact hfieldName.1

end ApiConfig.Accepted

end ApiScaffold
