import Mathlib
import ApiScaffold.Config.Query

/-! The fields that a list query filters by. They are fields of the resource, and their names are different from
each other and from the parameters that every query has. -/

namespace ApiScaffold

theorem filtersFrom_subset (taken : List String) (fields : List FieldSpec) : filtersFrom taken fields ⊆ fields := by
  induction fields generalizing taken with
  | nil => exact List.nil_subset _
  | cons field rest ih =>
      rw [filtersFrom]
      split
      · exact List.cons_subset_cons field (ih _)
      · exact List.subset_cons_of_subset field (ih taken)

/-- A filter has a name that was free, and takes it. -/
theorem filtersFrom_fresh (taken : List String) (fields : List FieldSpec) :
    ∀ name ∈ (filtersFrom taken fields).map FieldSpec.name, name ∉ taken := by
  induction fields generalizing taken with
  | nil => exact fun name hname => absurd hname List.not_mem_nil
  | cons field rest ih =>
      rw [filtersFrom]
      split
      · rename_i hfilter
        rw [Bool.and_eq_true] at hfilter
        rw [List.map_cons, List.forall_mem_cons]
        refine ⟨by simpa using hfilter.2, fun name hname hmem => ?_⟩
        exact ih (field.name :: taken) name hname (List.mem_cons_of_mem _ hmem)
      · exact ih taken

theorem filtersFrom_nodup (taken : List String) (fields : List FieldSpec) :
    ((filtersFrom taken fields).map FieldSpec.name).Nodup := by
  induction fields generalizing taken with
  | nil => exact List.nodup_nil
  | cons field rest ih =>
      rw [filtersFrom]
      split
      · rw [List.map_cons, List.nodup_cons]
        refine ⟨fun hmem => ?_, ih _⟩
        exact filtersFrom_fresh (field.name :: taken) rest field.name hmem List.mem_cons_self
      · exact ih taken

/-- The parameters of a list query have different names. -/
theorem ResourceSpec.queryNames_nodup (resource : ResourceSpec) :
    (queryParameters ++ resource.queryFilters.map FieldSpec.name).Nodup := by
  rw [List.nodup_append']
  refine ⟨by decide, filtersFrom_nodup _ _, fun name hfixed hfilter => ?_⟩
  exact filtersFrom_fresh queryParameters resource.fields name hfilter hfixed

end ApiScaffold
