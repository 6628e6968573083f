import Mathlib
import ApiScaffold.Proofs.Check.Finished
import ApiScaffold.Proofs.Check.Links
import ApiScaffold.Proofs.Check.Topic

/-! What the checks ask of a configuration, said without the order in which they go through it. Names that
were seen, tables that have an owner and names of indexes that are claimed come down to names, tables and
indexes that are different. A configuration is accepted exactly if it is all of what is asked. -/

namespace ApiScaffold

open Check

/-- What is asked of a resource by itself. -/
structure ResourceSpec.Coherent (resource : ResourceSpec) : Prop where
  identifier : Naming.isIdentifier resource.name = true
  fieldNames_nodup : resource.fieldNames.Nodup
  fieldNames : ∀ name ∈ resource.fieldNames, isFieldName name = true
  choices : ∀ field ∈ resource.fields, Clean (choicesOf (place resource field) field)
  columns : ∀ index ∈ resource.indexes, ∀ name ∈ index.fields, name ∈ columnNames resource
  bounds : ∀ field ∈ resource.fields, ∃ found, boundsOf (place resource field) field = .ok found ∧ Clean found
  defaults : ∀ field ∈ resource.fields, ∀ default ∈ field.declaredDefault,
    ∃ found, defaultOf (place resource field) field default = .ok found ∧ Clean found

namespace ApiConfig

/-- The target of a relation is there: the key or a declared field of an existing resource. -/
def Offers (config : ApiConfig) (target : RelationTarget) : Prop :=
  ∃ owner ∈ config.resources, owner.name = target.resource ∧
    (target.field = primaryKey ∨ target.field ∈ owner.fieldNames)

/-- What is asked of a configuration. -/
structure Coherent (config : ApiConfig) : Prop where
  resources : ∀ resource ∈ config.resources, resource.Coherent
  names_nodup : config.resourceNames.Nodup
  tables_nodup : (config.resources.map ResourceSpec.tableName).Nodup
  relations : ∀ resource ∈ config.resources, ∀ field ∈ resource.fields, field.relation.isSome = true →
    ∃ target, field.target? = some target ∧ config.Offers target
  indexNames : ∀ resource ∈ config.resources, ∀ index ∈ resource.indexes, ∀ other ∈ config.resources,
    ∀ otherIndex ∈ other.indexes, indexName resource index = indexName other otherIndex →
      resource.tableName = other.tableName ∧ index = otherIndex

end ApiConfig

namespace Check

/-! ### Names -/

theorem clean_ite_of_warning {condition : Bool} {finding : Finding} (h : finding.isError = false) :
    Clean (if condition then [finding] else []) := by
  split
  · exact List.forall_mem_singleton.mpr h
  · exact List.forall_mem_nil _

/-- Names that are admitted are found to be in order. -/
theorem clean_of_admitted {seen : List String} {tables : List (String × String)} {names : List String}
    (h : Admitted seen (tables.map (·.1)) names) : Clean (resourceNamesFrom seen tables names) := by
  induction names generalizing seen tables with
  | nil => exact List.forall_mem_nil _
  | cons name rest ih =>
      obtain ⟨hfresh, hfreshRest⟩ := List.forall_mem_cons.mp h.fresh
      obtain ⟨hname, hnodup⟩ := List.nodup_cons.mp h.nodup
      obtain ⟨hidentifier, hidentifiers⟩ := List.forall_mem_cons.mp h.identifiers
      obtain ⟨htable, htableRest⟩ := List.forall_mem_cons.mp h.tables_fresh
      obtain ⟨htableName, htables⟩ := List.nodup_cons.mp h.tables_nodup
      have hrest : Admitted (name :: seen) (((Naming.tableName name, name) :: tables).map (·.1)) rest := by
        refine ⟨fun other hother => ?_, hnodup, hidentifiers, fun other hother => ?_, htables⟩
        · rw [List.mem_cons, not_or]
          exact ⟨fun heq => hname (heq ▸ hother), hfreshRest other hother⟩
        · rw [List.map_cons, List.mem_cons, not_or]
          exact ⟨fun heq : Naming.tableName other = Naming.tableName name =>
            htableName (heq ▸ List.mem_map_of_mem hother), htableRest other hother⟩
      rw [resourceNamesFrom, if_neg (mt List.contains_iff_mem.mp hfresh), hidentifier, Bool.not_true,
        if_neg Bool.false_ne_true]
      dsimp only
      rw [lookup_eq_none_of_not_mem htable]
      exact clean_append.mpr ⟨clean_ite_of_warning rfl, ih hrest⟩

theorem clean_collisions (place : Place) (field : FieldSpec) : Clean (collisions place field) :=
  clean_append.mpr ⟨clean_append.mpr ⟨clean_ite_of_warning rfl, clean_ite_of_warning rfl⟩,
    clean_ite_of_warning rfl⟩

theorem clean_fieldNamesFrom {resource : String} {seen : List String} {fields : List FieldSpec}
    (hfresh : ∀ field ∈ fields, field.name ∉ seen) (hnodup : (fields.map FieldSpec.name).Nodup)
    (hnames : ∀ field ∈ fields, isFieldName field.name = true) :
    Clean (fieldNamesFrom resource seen fields) := by
  induction fields generalizing seen with
  | nil => exact List.forall_mem_nil _
  | cons field rest ih =>
      obtain ⟨hfirst, hfreshRest⟩ := List.forall_mem_cons.mp hfresh
      obtain ⟨hother, hnodupRest⟩ := List.nodup_cons.mp hnodup
      obtain ⟨hname, hnamesRest⟩ := List.forall_mem_cons.mp hnames
      rw [fieldNamesFrom, if_neg (mt List.contains_iff_mem.mp hfirst), hname, Bool.not_true, if_neg Bool.false_ne_true]
      refine clean_append.mpr ⟨clean_collisions _ _, ih (fun other hmem => ?_) hnodupRest hnamesRest⟩
      rw [List.mem_cons, not_or]
      exact ⟨fun heq => hother (heq ▸ List.mem_map_of_mem hmem), hfreshRest other hmem⟩

/-! ### Relations -/

/-- Where the names of resources differ, a resource is found under its own. -/
theorem resource?_eq_some {config : ApiConfig} (hnodup : config.resourceNames.Nodup)
    {resource : ResourceSpec} (hresource : resource ∈ config.resources) :
    config.resource? resource.name = some resource := by
  rw [ApiConfig.resource?, ← List.head?_filter, filter_eq_singleton hnodup hresource]
  rfl

theorem clean_relationOf {config : ApiConfig} (hnodup : config.resourceNames.Nodup) {place : Place}
    {field : FieldSpec}
    (h : field.relation.isSome = true → ∃ target, field.target? = some target ∧ config.Offers target) :
    Clean (relationOf config place field) := by
  unfold relationOf
  split
  · exact List.forall_mem_nil _
  · rename_i text hrelation
    rw [hrelation] at h
    obtain ⟨target, htarget, owner, howner, hname, hfield⟩ := h rfl
    have hfound : config.resource? target.resource = some owner :=
      hname ▸ resource?_eq_some hnodup howner
    have hstorage : ∃ storage, targetStorage config target = .ok storage := by
      rw [targetStorage, hfound]
      dsimp only
      split
      · exact ⟨_, rfl⟩
      · rename_i hkey
        obtain ⟨found, hfound, hfoundName⟩ := List.mem_map.mp (hfield.resolve_left hkey)
        have hsome : (owner.field? target.field).isSome = true := by
          rw [ResourceSpec.field?, List.find?_isSome]
          exact ⟨found, hfound, beq_iff_eq.mpr hfoundName⟩
        obtain ⟨declared, hdeclared⟩ := Option.isSome_iff_exists.mp hsome
        rw [hdeclared]
        exact ⟨_, rfl⟩
    obtain ⟨storage, hstorage⟩ := hstorage
    rw [relationFlaw?, htarget]
    dsimp only
    rw [hstorage]
    dsimp only
    split
    · exact List.forall_mem_nil _
    · exact List.forall_mem_singleton.mpr rfl

/-! ### Indexes -/

theorem clean_unknownIndexFields {resource : ResourceSpec} {index : IndexSpec}
    (h : ∀ name ∈ index.fields, name ∈ columnNames resource) :
    Clean (unknownIndexFields resource index) := by
  have hnone : (index.fields.filter fun name => !(columnNames resource).contains name) = [] := by
    rw [List.filter_eq_nil_iff]
    intro name hname
    simpa using h name hname
  rw [unknownIndexFields, hnone]
  exact List.forall_mem_nil _

/-- A name that is claimed was claimed before or is the name of one of the indexes. -/
theorem claim_of_mem_indexesFrom {resource : ResourceSpec} {seen : List IndexSpec}
    {claims : List IndexClaim} {indexes : List IndexSpec} {claim : IndexClaim}
    (h : claim ∈ (indexesFrom resource seen claims indexes).2) :
    claim ∈ claims ∨ ∃ index ∈ indexes, claim.name = indexName resource index := by
  induction indexes generalizing seen claims with
  | nil => exact Or.inl h
  | cons index rest ih =>
      have hlater : (∃ other ∈ rest, claim.name = indexName resource other) →
          ∃ other ∈ index :: rest, claim.name = indexName resource other :=
        fun ⟨other, hother, hname⟩ => ⟨other, List.mem_cons_of_mem _ hother, hname⟩
      rw [indexesFrom] at h
      dsimp only at h
      split at h
      · exact (ih h).imp_right hlater
      · split at h
        · exact (ih h).imp_right hlater
        · rcases ih h with hclaim | hrest
          · rcases List.mem_cons.mp hclaim with rfl | hold
            · exact Or.inr ⟨index, List.mem_cons_self, rfl⟩
            · exact Or.inl hold
          · exact Or.inr (hlater hrest)

section Indexes

variable {resource : ResourceSpec} {seen : List IndexSpec} {claims : List IndexClaim}

/-- Indexes over columns that have their names for themselves are found to be in order. -/
theorem clean_indexesFrom {indexes : List IndexSpec}
    (hcolumns : ∀ index ∈ indexes, ∀ name ∈ index.fields, name ∈ columnNames resource)
    (hfresh : ∀ index ∈ indexes, index ∉ seen → ∀ claim ∈ claims, claim.name ≠ indexName resource index)
    (hapart : ∀ index ∈ indexes, ∀ other ∈ indexes, indexName resource index = indexName resource other →
      index = other) :
    Clean (indexesFrom resource seen claims indexes).1 := by
  induction indexes generalizing seen claims with
  | nil => exact List.forall_mem_nil _
  | cons index rest ih =>
      obtain ⟨hcolumn, hcolumnRest⟩ := List.forall_mem_cons.mp hcolumns
      obtain ⟨hfirst, hfreshRest⟩ := List.forall_mem_cons.mp hfresh
      have hunknown := clean_unknownIndexFields hcolumn
      have hapartRest : ∀ other ∈ rest, ∀ third ∈ rest,
          indexName resource other = indexName resource third → other = third := fun other hother third hthird =>
        hapart other (List.mem_cons_of_mem _ hother) third (List.mem_cons_of_mem _ hthird)
      rw [indexesFrom]
      dsimp only
      split
      · exact clean_append.mpr ⟨hunknown, clean_cons.mpr ⟨rfl, ih hcolumnRest hfreshRest hapartRest⟩⟩
      · rename_i hseen
        have hnew : index ∉ seen := mt List.contains_iff_mem.mpr hseen
        split
        · rename_i claim hclaim
          have hname : claim.name = indexName resource index := by
            simpa [indexName] using List.find?_some hclaim
          exact absurd hname (hfirst hnew claim (List.mem_of_find?_eq_some hclaim))
        · refine clean_append.mpr ⟨hunknown, ih hcolumnRest (fun other hother hunseen claim hclaim => ?_)
            hapartRest⟩
          rw [List.mem_cons, not_or] at hunseen
          rcases List.mem_cons.mp hclaim with rfl | hold
          · exact fun hname => hunseen.1
              (hapart index List.mem_cons_self other (List.mem_cons_of_mem _ hother) hname).symm
          · exact hfreshRest other hother hunseen.2 claim hold

theorem clean_resourceIndexesFrom {resources : List ResourceSpec}
    (hcolumns : ∀ resource ∈ resources, ∀ index ∈ resource.indexes, ∀ name ∈ index.fields,
      name ∈ columnNames resource)
    (hfresh : ∀ resource ∈ resources, ∀ index ∈ resource.indexes, ∀ claim ∈ claims,
      claim.name ≠ indexName resource index)
    (htables : (resources.map ResourceSpec.tableName).Nodup)
    (hapart : ∀ resource ∈ resources, ∀ index ∈ resource.indexes, ∀ other ∈ resources,
      ∀ otherIndex ∈ other.indexes, indexName resource index = indexName other otherIndex →
        resource.tableName = other.tableName ∧ index = otherIndex) :
    Clean (resourceIndexesFrom claims resources) := by
  induction resources generalizing claims with
  | nil => exact List.forall_mem_nil _
  | cons resource rest ih =>
      obtain ⟨hcolumn, hcolumnRest⟩ := List.forall_mem_cons.mp hcolumns
      obtain ⟨hfirst, hfreshRest⟩ := List.forall_mem_cons.mp hfresh
      obtain ⟨htable, htablesRest⟩ := List.nodup_cons.mp htables
      rw [resourceIndexesFrom]
      refine clean_append.mpr ⟨clean_indexesFrom hcolumn (fun index hindex _ => hfirst index hindex) ?_,
        ih hcolumnRest (fun other hother index hindex claim hclaim => ?_) htablesRest ?_⟩
      · intro index hindex other hother hname
        exact (hapart resource List.mem_cons_self index hindex resource List.mem_cons_self other hother
          hname).2
      · rcases claim_of_mem_indexesFrom hclaim with hold | ⟨own, hown, hname⟩
        · exact hfreshRest other hother index hindex claim hold
        · -- An index of this resource has another table in its name.
          intro heq
          have hsame := (hapart resource List.mem_cons_self own hown other (List.mem_cons_of_mem _ hother)
            index hindex (hname.symm.trans heq)).1
          exact htable (hsame ▸ List.mem_map_of_mem hother)
      · intro other hother index hindex third hthird
        exact hapart other (List.mem_cons_of_mem _ hother) index hindex third
          (List.mem_cons_of_mem _ hthird)

end Indexes

/-! ### Bounds and defaults -/

/-- A check of all fields can be finished and finds no error exactly if this holds of every field. -/
theorem exists_clean_onFields_iff {check : Place → FieldSpec → Except Fault (List Finding)}
    {config : ApiConfig} :
    (∃ findings, onFieldsWithFaults check config = .ok findings ∧ Clean findings) ↔
      ∀ resource ∈ config.resources, ∀ field ∈ resource.fields,
        ∃ found, check (place resource field) field = .ok found ∧ Clean found := by
  constructor
  · rintro ⟨findings, hfindings, hclean⟩ resource hresource field hfield
    obtain ⟨found, hfound⟩ := exists_onFieldsWithFaults_iff.mp ⟨findings, hfindings⟩ resource hresource
      field hfield
    exact ⟨found, hfound, fun finding hmem => hclean finding
      ((mem_onFieldsWithFaults hfindings).mpr ⟨resource, hresource, field, hfield, found, hfound, hmem⟩)⟩
  · intro h
    obtain ⟨findings, hfindings⟩ := exists_onFieldsWithFaults_iff.mpr fun resource hresource field hfield =>
      (h resource hresource field hfield).imp fun _ hfound => hfound.1
    refine ⟨findings, hfindings, fun finding hmem => ?_⟩
    obtain ⟨resource, hresource, field, hfield, found, hfound, hin⟩ :=
      (mem_onFieldsWithFaults hfindings).mp hmem
    obtain ⟨found', hfound', hclean⟩ := h resource hresource field hfield
    rw [hfound] at hfound'
    exact hclean finding (Except.ok.inj hfound' ▸ hin)

theorem exists_clean_defaults_iff {config : ApiConfig} :
    (∃ findings, defaults config = .ok findings ∧ Clean findings) ↔
      ∀ resource ∈ config.resources, ∀ field ∈ resource.fields, ∀ default ∈ field.declaredDefault,
        ∃ found, defaultOf (place resource field) field default = .ok found ∧ Clean found := by
  rw [defaults, exists_clean_onFields_iff]
  refine forall₄_congr fun resource _ field _ => ?_
  cases field.declaredDefault with
  | none => exact iff_of_true ⟨[], rfl, List.forall_mem_nil _⟩ (by simp)
  | some default => simp

theorem clean_circularRelations (config : ApiConfig) : Clean (circularRelations config) := by
  intro finding hfinding
  obtain ⟨cycle, -, rfl⟩ := List.mem_map.mp hfinding
  rfl

end Check

namespace ApiConfig

variable {config : ApiConfig}

theorem Accepted.coherent (h : config.Accepted) : config.Coherent where
  resources resource hresource :=
    { identifier := h.admitted.identifiers resource.name (List.mem_map_of_mem hresource)
      fieldNames_nodup := h.fieldNames_nodup hresource
      fieldNames := fun name hname => h.isFieldName hresource hname
      choices := clean_flatMap.mp (clean_flatMap.mp h.choices resource hresource)
      columns := fun index hindex name hname => h.mem_columnNames hresource hindex hname
      bounds := exists_clean_onFields_iff.mp h.bounds resource hresource
      defaults := exists_clean_defaults_iff.mp h.defaults resource hresource }
  names_nodup := h.resourceNames_nodup
  tables_nodup := h.tableNames_nodup
  relations := by
    intro resource hresource field hfield hsome
    obtain ⟨text, hrelation⟩ := Option.isSome_iff_exists.mp hsome
    obtain ⟨target, htarget, owner, howner, hcolumn⟩ := h.exists_target hresource hfield hrelation
    refine ⟨target, htarget, owner, List.mem_of_find?_eq_some howner, ?_, hcolumn⟩
    simpa using List.find?_some howner
  indexNames := (resourceIndexesFrom_names h.indexes).2

/-- **What acceptance asks.** A configuration is accepted exactly if it is coherent. -/
theorem accepted_iff_coherent : config.Accepted ↔ config.Coherent := by
  refine ⟨Accepted.coherent, fun h => accepted_iff_topics.mpr fun topic => ?_⟩
  cases topic with
  | resourceNames =>
      refine ⟨_, rfl, clean_of_admitted ⟨by simp, h.names_nodup, fun name hname => ?_, by simp, ?_⟩⟩
      · obtain ⟨resource, hresource, rfl⟩ := List.mem_map.mp hname
        exact (h.resources resource hresource).identifier
      · rw [resourceNames, List.map_map]
        exact h.tables_nodup
  | fieldNames =>
      refine ⟨_, rfl, clean_flatMap.mpr fun resource hresource => ?_⟩
      have hown := h.resources resource hresource
      exact clean_fieldNamesFrom (by simp) hown.fieldNames_nodup
        fun field hfield => hown.fieldNames field.name (List.mem_map_of_mem hfield)
  | choices =>
      exact ⟨_, rfl, clean_flatMap.mpr fun resource hresource =>
        clean_flatMap.mpr (h.resources resource hresource).choices⟩
  | relations =>
      exact ⟨_, rfl, clean_flatMap.mpr fun resource hresource => clean_flatMap.mpr fun field hfield =>
        clean_relationOf h.names_nodup (h.relations resource hresource field hfield)⟩
  | circularRelations => exact ⟨_, rfl, clean_circularRelations config⟩
  | indexes =>
      exact ⟨_, rfl, clean_resourceIndexesFrom (fun resource hresource =>
        (h.resources resource hresource).columns) (by simp) h.tables_nodup h.indexNames⟩
  | bounds =>
      exact exists_clean_onFields_iff.mpr fun resource hresource => (h.resources resource hresource).bounds
  | defaults =>
      exact exists_clean_defaults_iff.mpr fun resource hresource =>
        (h.resources resource hresource).defaults

end ApiConfig

end ApiScaffold
