import Mathlib
import ApiScaffold.Proofs.Imports

/-! What a merged block of imports holds: the names of all its parts, each once, under modules that each have
one entry. Its text lists modules and names in ascending order, and can be read back. -/

namespace ApiScaffold.Imports

open Text

/-- A block takes a name from a module. -/
def Provides (imports : Imports) (module name : String) : Prop :=
  ∃ entry ∈ imports, entry.1 = module ∧ name ∈ entry.2

instance (imports : Imports) (module name : String) : Decidable (imports.Provides module name) :=
  inferInstanceAs (Decidable (∃ entry ∈ imports, _))

/-- Each module has one entry, and no name is in it twice. -/
structure IsSet (imports : Imports) : Prop where
  modules : (imports.map (·.1)).Nodup
  names : ∀ entry ∈ imports, entry.2.Nodup

/-! ### Merging -/

section Merging

variable {imports : Imports} {module name : String} {names : List String}

theorem nodup_addNames {new : List String} (h : names.Nodup) : (addNames names new).Nodup := by
  rw [addNames]
  induction new generalizing names with
  | nil => exact h
  | cons first rest ih =>
      rw [List.foldl_cons]
      apply ih
      split
      · exact h
      · rename_i hfirst
        have hfresh : first ∉ names := by simpa using hfirst
        rw [← List.concat_eq_append]
        exact h.concat hfresh

theorem provides_add {other : String} :
    (imports.add other names).Provides module name ↔
      imports.Provides module name ∨ module = other ∧ name ∈ names := by
  constructor
  · rintro ⟨made, hmade, rfl, hname⟩
    rcases mem_add.mp hmade with ⟨hold, -⟩ | ⟨entry, hentry, hsame, rfl⟩ | ⟨-, rfl⟩
    · exact Or.inl ⟨made, hold, rfl, hname⟩
    · exact (mem_addNames.mp hname).imp (fun hmine => ⟨entry, hentry, hsame, hmine⟩) fun hnew => ⟨rfl, hnew⟩
    · exact Or.inr ⟨rfl, (mem_addNames.mp hname).resolve_left List.not_mem_nil⟩
  · have hchanged : ∀ entry ∈ imports, entry.1 = other → ∀ name, (name ∈ entry.2 ∨ name ∈ names) →
        Provides (imports.add other names) other name := fun entry hentry hsame name hname =>
      ⟨_, mem_add.mpr (Or.inr (Or.inl ⟨entry, hentry, hsame, rfl⟩)), rfl, mem_addNames.mpr hname⟩
    rintro (⟨entry, hentry, rfl, hname⟩ | ⟨rfl, hname⟩)
    · by_cases hsame : entry.1 = other
      · rw [hsame]
        exact hchanged entry hentry hsame name (Or.inl hname)
      · exact ⟨entry, mem_add.mpr (Or.inl ⟨hentry, hsame⟩), rfl, hname⟩
    · by_cases hmem : module ∈ imports.map (·.1)
      · obtain ⟨entry, hentry, hsame⟩ := List.mem_map.mp hmem
        exact hchanged entry hentry hsame name (Or.inr hname)
      · exact ⟨_, mem_add.mpr (Or.inr (Or.inr ⟨hmem, rfl⟩)), rfl, mem_addNames.mpr (Or.inr hname)⟩

theorem modules_add :
    (imports.add module names).map (·.1) =
      if module ∈ imports.map (·.1) then imports.map (·.1) else imports.map (·.1) ++ [module] := by
  rw [add]
  simp only [any_module_iff]
  split
  · rw [List.map_map]
    refine List.map_congr_left fun entry _ => ?_
    by_cases hsame : entry.1 = module
    · simp [hsame]
    · simp [hsame]
  · rw [List.map_append, List.map_singleton]

theorem IsSet.add (h : imports.IsSet) (module : String) (names : List String) :
    (imports.add module names).IsSet where
  modules := by
    rw [modules_add]
    split
    · exact h.modules
    · rename_i hfresh
      rw [← List.concat_eq_append]
      exact h.modules.concat hfresh
  names := by
    intro made hmade
    rcases mem_add.mp hmade with ⟨hold, -⟩ | ⟨entry, hentry, -, rfl⟩ | ⟨-, rfl⟩
    · exact h.names made hold
    · exact nodup_addNames (h.names entry hentry)
    · exact nodup_addNames List.nodup_nil

/-- Merging blocks is merging all of their entries. -/
theorem mergeAll_flatten (blocks : List Imports) : mergeAll [blocks.flatten] = mergeAll blocks :=
  List.foldl_flatten

theorem provides_merge {other : Imports} :
    (imports.merge other).Provides module name ↔
      imports.Provides module name ∨ other.Provides module name := by
  rw [merge]
  induction other generalizing imports with
  | nil => simp [Provides]
  | cons entry rest ih =>
      rw [List.foldl_cons, ih, provides_add, or_assoc]
      refine or_congr_right ?_
      simp only [Provides, List.exists_mem_cons_iff, eq_comm]

theorem provides_mergeAll {blocks : List Imports} :
    (mergeAll blocks).Provides module name ↔ ∃ block ∈ blocks, block.Provides module name := by
  have hnothing : ¬Provides [] module name := fun ⟨_, hentry, _⟩ => List.not_mem_nil hentry
  rw [← mergeAll_flatten]
  change (merge [] blocks.flatten).Provides module name ↔ _
  rw [provides_merge, or_iff_right hnothing]
  simp only [Provides, List.mem_flatten]
  constructor
  · rintro ⟨entry, ⟨block, hblock, hentry⟩, hname⟩
    exact ⟨block, hblock, entry, hentry, hname⟩
  · rintro ⟨block, hblock, entry, hentry, hname⟩
    exact ⟨entry, ⟨block, hblock, hentry⟩, hname⟩

theorem isSet_mergeAll (blocks : List Imports) : (mergeAll blocks).IsSet := by
  have hmerge : ∀ (entries imports : Imports), imports.IsSet → (merge imports entries).IsSet := by
    intro entries
    induction entries with
    | nil => exact fun _ h => h
    | cons entry rest ih => exact fun imports h => ih _ (h.add entry.1 entry.2)
  rw [← mergeAll_flatten]
  exact hmerge blocks.flatten [] ⟨List.nodup_nil, List.forall_mem_nil _⟩

end Merging

/-! ### Order -/

/-- Sorting by texts that differ puts them in ascending order. -/
theorem pairwise_mergeSort {α : Type} {key : α → String} {items : List α} (h : (items.map key).Nodup) :
    (items.mergeSort fun a b => !decide (key b < key a)).Pairwise fun a b => key a < key b := by
  have hle : ∀ a b, (!decide (key b < key a)) = true ↔ key a ≤ key b := by
    intro a b
    rw [Bool.not_eq_true', decide_eq_false_iff_not, String.not_lt]
  have hsorted : (items.mergeSort fun a b => !decide (key b < key a)).Pairwise fun a b => key a ≤ key b := by
    refine (List.pairwise_mergeSort ?_ ?_ items).imp fun hab => (hle _ _).mp hab
    · intro a b c hab hbc
      exact (hle a c).mpr (String.le_trans ((hle a b).mp hab) ((hle b c).mp hbc))
    · intro a b
      rw [Bool.or_eq_true, hle, hle]
      exact String.le_total _ _
  have hdistinct : ((items.mergeSort fun a b => !decide (key b < key a)).map key).Nodup :=
    ((List.mergeSort_perm items _).map key).nodup_iff.mpr h
  refine hsorted.imp₂ (fun a b hab hne => ?_) (List.pairwise_map.mp hdistinct)
  exact String.not_le.mp fun hba => hne (String.le_antisymm hab hba)

theorem nodup_of_pairwise_lt {α : Type} {key : α → String} {items : List α}
    (h : items.Pairwise fun a b => key a < key b) : items.Nodup := by
  refine List.nodup_iff_pairwise_ne.mpr (h.imp ?_)
  rintro a _ hlt rfl
  exact String.lt_irrefl _ hlt

/-- An ascending list is determined by its members. -/
theorem eq_of_pairwise_lt {α : Type} {key : α → String} {items others : List α}
    (h : items.Pairwise fun a b => key a < key b) (hothers : others.Pairwise fun a b => key a < key b)
    (hsame : ∀ item, item ∈ items ↔ item ∈ others) : items = others :=
  List.Perm.eq_of_pairwise (fun _ _ _ _ hab hba => absurd hba (String.lt_asymm hab)) h hothers
    ((List.perm_ext_iff_of_nodup (nodup_of_pairwise_lt h) (nodup_of_pairwise_lt hothers)).mpr hsame)

theorem pairwise_sortTexts {texts : List String} (h : texts.Nodup) :
    (sortTexts texts).Pairwise fun a b => id a < id b :=
  pairwise_mergeSort ((List.map_id texts).symm ▸ h)

/-- The entries of a block in the order of its text. -/
def sorted (imports : Imports) : Imports :=
  (imports.mergeSort fun a b => !decide (b.1 < a.1)).map fun entry => (entry.1, sortTexts entry.2)

/-- Modules and names ascend, so none of them occurs twice; and no module is without names. -/
structure IsSorted (imports : Imports) : Prop where
  modules : (imports.map (·.1)).Pairwise (· < ·)
  names : ∀ entry ∈ imports, entry.2 ≠ [] ∧ entry.2.Pairwise (· < ·)

theorem mem_sorted {imports : Imports} {made : String × List String} :
    made ∈ sorted imports ↔ ∃ entry ∈ imports, (entry.1, sortTexts entry.2) = made := by
  rw [sorted, List.mem_map]
  simp only [List.mem_mergeSort]

theorem provides_sorted {imports : Imports} {module name : String} :
    (sorted imports).Provides module name ↔ imports.Provides module name := by
  constructor
  · rintro ⟨made, hmade, rfl, hname⟩
    obtain ⟨entry, hentry, rfl⟩ := mem_sorted.mp hmade
    exact ⟨entry, hentry, rfl, mem_sortTexts.mp hname⟩
  · rintro ⟨entry, hentry, rfl, hname⟩
    exact ⟨_, mem_sorted.mpr ⟨entry, hentry, rfl⟩, rfl, mem_sortTexts.mpr hname⟩

theorem IsSet.pairwise_sorted {imports : Imports} (h : imports.IsSet) :
    (sorted imports).Pairwise fun a b => a.1 < b.1 := by
  rw [sorted, List.pairwise_map]
  exact pairwise_mergeSort h.modules

theorem IsSet.names_sorted {imports : Imports} (h : imports.IsSet) :
    ∀ entry ∈ sorted imports, entry.2.Pairwise (· < ·) := by
  intro made hmade
  obtain ⟨entry, hentry, rfl⟩ := mem_sorted.mp hmade
  exact pairwise_sortTexts (h.names entry hentry)

theorem IsSet.isSorted {imports : Imports} (h : imports.IsSet) (hne : ∀ entry ∈ imports, entry.2 ≠ []) :
    (sorted imports).IsSorted where
  modules := List.pairwise_map.mpr h.pairwise_sorted
  names := by
    intro made hmade
    refine ⟨?_, h.names_sorted made hmade⟩
    obtain ⟨entry, hentry, rfl⟩ := mem_sorted.mp hmade
    exact sortTexts_ne_nil (hne entry hentry)

/-- **The entries of a block are read back from its text**, one from each line. -/
theorem read?_linesOf_block {imports : Imports} (h : ∀ entry ∈ imports, IsLegible entry) (hne : imports ≠ []) :
    (linesOf imports.block).map read? = (sorted imports).map some := by
  have hwhole := linesOf_block hne fun entry hentry => linesOf_line (h entry hentry)
  rw [hwhole, lines, sorted, List.map_map, List.map_map]
  refine List.map_congr_left fun entry hentry => ?_
  exact read?_line (h entry (List.mem_mergeSort.mp hentry))

end ApiScaffold.Imports
