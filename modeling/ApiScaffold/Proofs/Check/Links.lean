import Mathlib
import ApiScaffold.Proofs.Check.Names

/-! What the checks of relations and indexes guarantee: every relation is well-formed and leads to the
key or a declared field of an existing resource, every index covers columns of its resource, and only
one index of the whole configuration has its name, however often it is declared. -/

namespace ApiScaffold

namespace Check

/-! ### Relations -/

/-- A storage for the target is only found where the resource exists and has the key or the field. -/
theorem targetStorage_eq_ok {config : ApiConfig} {target : RelationTarget} {storage : Storage}
    (h : targetStorage config target = .ok storage) :
    ∃ resource, config.resource? target.resource = some resource ∧
      (target.field = primaryKey ∨ target.field ∈ resource.fieldNames) := by
  rw [targetStorage] at h
  split at h
  · cases h
  · rename_i resource hresource
    refine ⟨resource, hresource, ?_⟩
    split at h
    · rename_i hkey
      exact Or.inl hkey
    · split at h
      · cases h
      · rename_i field hfield
        right
        rw [ResourceSpec.field?] at hfield
        have hname : field.name = target.field := by simpa using List.find?_some hfield
        exact hname ▸ List.mem_map_of_mem (List.mem_of_find?_eq_some hfield)

/-- A target that is not found is an error. -/
theorem level_of_targetStorage {config : ApiConfig} {target : RelationTarget} {flaw : RelationFlaw}
    (h : targetStorage config target = .error flaw) : flaw.level = .error := by
  rw [targetStorage] at h
  split at h
  · exact Except.error.inj h ▸ rfl
  · split at h
    · cases h
    · split at h
      · exact Except.error.inj h ▸ rfl
      · cases h

/-- A flaw that is no error leaves the relation usable. -/
theorem exists_target_of_clean {config : ApiConfig} {place : Place} {field : FieldSpec}
    {text : String} (hrelation : field.relation = some text)
    (h : Clean (relationOf config place field)) :
    ∃ target, field.target? = some target ∧ ∃ resource,
      config.resource? target.resource = some resource ∧
        (target.field = primaryKey ∨ target.field ∈ resource.fieldNames) := by
  simp only [relationOf, hrelation] at h
  rw [relationFlaw?] at h
  split at h
  · exact absurd h (not_clean_cons rfl)
  · rename_i target htarget
    refine ⟨target, htarget, ?_⟩
    split at h
    · rename_i flaw hflaw
      refine absurd h (not_clean_cons ?_)
      rw [Finding.isError, Finding.level, level_of_targetStorage hflaw]
      rfl
    · rename_i storage hstorage
      exact targetStorage_eq_ok hstorage

/-! ### Indexes -/

theorem mem_columnNames_of_clean {resource : ResourceSpec} {index : IndexSpec}
    (h : Clean (unknownIndexFields resource index)) :
    ∀ name ∈ index.fields, name ∈ columnNames resource := by
  intro name hname
  by_contra hunknown
  have hfinding : Finding.unknownIndexField ⟨resource.name, name⟩ ∈
      unknownIndexFields resource index := by
    rw [unknownIndexFields, List.mem_map]
    refine ⟨name, ?_, rfl⟩
    rw [List.mem_filter]
    exact ⟨hname, by simpa using hunknown⟩
  exact not_clean_of_mem hfinding rfl h

/-- Whichever way an index is judged, its unknown fields are among the findings. -/
theorem indexesFrom_columns {resource : ResourceSpec} {seen : List IndexSpec}
    {claims : List IndexClaim} {indexes : List IndexSpec}
    (h : Clean (indexesFrom resource seen claims indexes).1) :
    ∀ index ∈ indexes, ∀ name ∈ index.fields, name ∈ columnNames resource := by
  induction indexes generalizing seen claims with
  | nil => simp
  | cons index rest ih =>
      rw [List.forall_mem_cons]
      rw [indexesFrom] at h
      dsimp only at h
      split at h
      · obtain ⟨hunknown, hrest⟩ := clean_append.mp h
        exact ⟨mem_columnNames_of_clean hunknown, ih (clean_cons.mp hrest).2⟩
      · split at h
        · obtain ⟨hunknown, hrest⟩ := clean_append.mp h
          exact ⟨mem_columnNames_of_clean hunknown, ih (clean_cons.mp hrest).2⟩
        · obtain ⟨hunknown, hrest⟩ := clean_append.mp h
          exact ⟨mem_columnNames_of_clean hunknown, ih hrest⟩

theorem resourceIndexesFrom_columns {claims : List IndexClaim} {resources : List ResourceSpec}
    (h : Clean (resourceIndexesFrom claims resources)) :
    ∀ resource ∈ resources, ∀ index ∈ resource.indexes, ∀ name ∈ index.fields,
      name ∈ columnNames resource := by
  induction resources generalizing claims with
  | nil => simp
  | cons resource rest ih =>
      rw [resourceIndexesFrom] at h
      obtain ⟨hfirst, hrest⟩ := clean_append.mp h
      rw [List.forall_mem_cons]
      exact ⟨indexesFrom_columns hfirst, ih hrest⟩

/-! ### Names of indexes -/

/-- The name of an index of a resource. -/
def indexName (resource : ResourceSpec) (index : IndexSpec) : String :=
  Naming.indexName resource.tableName index.fields index.unique

/-- What the check of the indexes of a resource does to the names that are claimed, apart from the
indexes seen before: each index gets a name that was not claimed, and no other index gets it. -/
structure Claimed (resource : ResourceSpec) (seen : List IndexSpec) (before : List IndexClaim)
    (indexes : List IndexSpec) (after : List IndexClaim) : Prop where
  kept : before ⊆ after
  fresh : ∀ index ∈ indexes, index ∉ seen → ∀ claim ∈ before, claim.name ≠ indexName resource index
  claimed : ∀ index ∈ indexes, index ∉ seen → ∃ claim ∈ after, claim.name = indexName resource index
  apart : ∀ index ∈ indexes, index ∉ seen → ∀ other ∈ indexes, other ∉ seen →
    indexName resource index = indexName resource other → index = other

section Claimed

variable {resource : ResourceSpec} {seen : List IndexSpec} {before after : List IndexClaim}
  {index : IndexSpec} {rest : List IndexSpec}

/-- An index that was seen claims nothing. -/
theorem Claimed.cons_seen (hseen : index ∈ seen) (h : Claimed resource seen before rest after) :
    Claimed resource seen before (index :: rest) after where
  kept := h.kept
  fresh := by
    rw [List.forall_mem_cons]
    exact ⟨fun hnew => absurd hseen hnew, h.fresh⟩
  claimed := by
    rw [List.forall_mem_cons]
    exact ⟨fun hnew => absurd hseen hnew, h.claimed⟩
  apart := by
    intro first hfirst hnew second hsecond hnew' heq
    rcases List.mem_cons.mp hfirst with rfl | hfirst
    · exact absurd hseen hnew
    · rcases List.mem_cons.mp hsecond with rfl | hsecond
      · exact absurd hseen hnew'
      · exact h.apart first hfirst hnew second hsecond hnew' heq

/-- A new index claims its name, which nobody had claimed. -/
theorem Claimed.cons_new {claim : IndexClaim} (hclaim : claim.name = indexName resource index)
    (hfree : ∀ claim ∈ before, claim.name ≠ indexName resource index)
    (h : Claimed resource (index :: seen) (claim :: before) rest after) :
    Claimed resource seen before (index :: rest) after := by
  have hnew : ∀ other ∈ rest, other ∉ seen → other = index ∨ other ∉ index :: seen := by
    intro other _ hseen
    by_cases heq : other = index
    · exact Or.inl heq
    · exact Or.inr fun hmem => (List.mem_cons.mp hmem).elim heq hseen
  have hother : ∀ other ∈ rest, other ∉ seen →
      indexName resource index = indexName resource other → index = other := by
    intro other hmem hseen heq
    rcases hnew other hmem hseen with rfl | hunseen
    · rfl
    · exact absurd (hclaim.trans heq) (h.fresh other hmem hunseen claim List.mem_cons_self)
  refine ⟨fun c hc => h.kept (List.mem_cons_of_mem _ hc), ?_, ?_, ?_⟩
  · rw [List.forall_mem_cons]
    refine ⟨fun _ => hfree, fun other hmem hseen c hc => ?_⟩
    rcases hnew other hmem hseen with rfl | hunseen
    · exact hfree c hc
    · exact h.fresh other hmem hunseen c (List.mem_cons_of_mem _ hc)
  · rw [List.forall_mem_cons]
    have hmine : ∃ c ∈ after, c.name = indexName resource index :=
      ⟨claim, h.kept List.mem_cons_self, hclaim⟩
    refine ⟨fun _ => hmine, fun other hmem hseen => ?_⟩
    rcases hnew other hmem hseen with rfl | hunseen
    · exact hmine
    · exact h.claimed other hmem hunseen
  · intro first hfirst hseen second hsecond hseen' heq
    rcases List.mem_cons.mp hfirst with rfl | hrest
    · rcases List.mem_cons.mp hsecond with rfl | hrest'
      · rfl
      · exact hother second hrest' hseen' heq
    · rcases List.mem_cons.mp hsecond with rfl | hrest'
      · exact (hother first hrest hseen heq.symm).symm
      · rcases hnew first hrest hseen with rfl | hunseen
        · exact hother second hrest' hseen' heq
        · rcases hnew second hrest' hseen' with rfl | hunseen'
          · exact (hother first hrest hseen heq.symm).symm
          · exact h.apart first hrest hunseen second hrest' hunseen' heq

theorem indexesFrom_claimed {indexes : List IndexSpec}
    (h : Clean (indexesFrom resource seen before indexes).1) :
    Claimed resource seen before indexes (indexesFrom resource seen before indexes).2 := by
  induction indexes generalizing seen before with
  | nil => exact ⟨fun _ hc => hc, by simp, by simp, by simp⟩
  | cons index rest ih =>
      rw [indexesFrom] at h ⊢
      dsimp only at h ⊢
      split at h
      · rename_i hseen
        have hrest := ih (clean_cons.mp (clean_append.mp h).2).2
        rw [if_pos hseen]
        exact hrest.cons_seen (by simpa using hseen)
      · rename_i hseen
        split at h
        · exact absurd (clean_append.mp h).2 (not_clean_cons rfl)
        · rename_i hnone
          have hrest := ih (clean_append.mp h).2
          rw [if_neg hseen]
          refine hrest.cons_new rfl ?_
          simpa [indexName] using List.find?_eq_none.mp hnone

end Claimed

/-- Names that resources claim one after another: none was claimed before, and equal names are names of
equal indexes of one table. -/
theorem resourceIndexesFrom_names {claims : List IndexClaim} {resources : List ResourceSpec}
    (h : Clean (resourceIndexesFrom claims resources)) :
    (∀ resource ∈ resources, ∀ index ∈ resource.indexes, ∀ claim ∈ claims,
        claim.name ≠ indexName resource index) ∧
      ∀ resource ∈ resources, ∀ index ∈ resource.indexes, ∀ other ∈ resources,
        ∀ otherIndex ∈ other.indexes, indexName resource index = indexName other otherIndex →
          resource.tableName = other.tableName ∧ index = otherIndex := by
  induction resources generalizing claims with
  | nil => simp
  | cons resource rest ih =>
      rw [resourceIndexesFrom] at h
      obtain ⟨hfirst, hrest⟩ := clean_append.mp h
      have hclaimed := indexesFrom_claimed hfirst
      obtain ⟨hfresh, hapart⟩ := ih hrest
      -- Whatever this resource claims is not free for those behind it.
      have hbehind : ∀ index ∈ resource.indexes, ∀ other ∈ rest, ∀ otherIndex ∈ other.indexes,
          indexName resource index ≠ indexName other otherIndex := by
        intro index hindex other hother otherIndex hotherIndex heq
        obtain ⟨claim, hclaim, hname⟩ := hclaimed.claimed index hindex List.not_mem_nil
        exact hfresh other hother otherIndex hotherIndex claim hclaim (hname.trans heq)
      constructor
      · rw [List.forall_mem_cons]
        refine ⟨fun index hindex => hclaimed.fresh index hindex List.not_mem_nil, ?_⟩
        intro other hother index hindex claim hclaim
        exact hfresh other hother index hindex claim (hclaimed.kept hclaim)
      · intro first hfirst' index hindex second hsecond otherIndex hotherIndex heq
        rcases List.mem_cons.mp hfirst' with rfl | hbehind₁
        · rcases List.mem_cons.mp hsecond with rfl | hbehind₂
          · exact ⟨rfl, hclaimed.apart index hindex List.not_mem_nil otherIndex hotherIndex
              List.not_mem_nil heq⟩
          · exact absurd heq (hbehind index hindex second hbehind₂ otherIndex hotherIndex)
        · rcases List.mem_cons.mp hsecond with rfl | hbehind₂
          · exact absurd heq.symm (hbehind otherIndex hotherIndex first hbehind₁ index hindex)
          · exact hapart first hbehind₁ index hindex second hbehind₂ otherIndex hotherIndex heq

end Check

namespace ApiConfig.Accepted

variable {config : ApiConfig} {resource : ResourceSpec}

/-- Every relation leads to the key or a declared field of an existing resource. -/
theorem exists_target (h : config.Accepted) (hresource : resource ∈ config.resources)
    {field : FieldSpec} (hfield : field ∈ resource.fields) {text : String}
    (hrelation : field.relation = some text) :
    ∃ target, field.target? = some target ∧ ∃ owner,
      config.resource? target.resource = some owner ∧
        (target.field = primaryKey ∨ target.field ∈ owner.fieldNames) := by
  have hfields := Check.clean_flatMap.mp h.relations resource hresource
  exact Check.exists_target_of_clean hrelation (Check.clean_flatMap.mp hfields field hfield)

/-- Every index covers columns of its resource. -/
theorem mem_columnNames (h : config.Accepted) (hresource : resource ∈ config.resources)
    {index : IndexSpec} (hindex : index ∈ resource.indexes) {name : String}
    (hname : name ∈ index.fields) : name ∈ Check.columnNames resource :=
  Check.resourceIndexesFrom_columns h.indexes resource hresource index hindex name hname

/-- Indexes of one name are one index, on one table. -/
theorem index_eq_of_name (h : config.Accepted) (hresource : resource ∈ config.resources)
    {index : IndexSpec} (hindex : index ∈ resource.indexes) {other : ResourceSpec}
    (hother : other ∈ config.resources) {otherIndex : IndexSpec}
    (hotherIndex : otherIndex ∈ other.indexes)
    (heq : Check.indexName resource index = Check.indexName other otherIndex) :
    resource.tableName = other.tableName ∧ index = otherIndex :=
  (Check.resourceIndexesFrom_names h.indexes).2 resource hresource index hindex other hother
    otherIndex hotherIndex heq

end ApiConfig.Accepted

end ApiScaffold
