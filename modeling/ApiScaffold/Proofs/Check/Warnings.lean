import Mathlib
import ApiScaffold.Proofs.Check.Fields
import ApiScaffold.Proofs.Check.Names
import ApiScaffold.Proofs.Check.Topic
import ApiScaffold.Proofs.Config.Query
import ApiScaffold.Proofs.Endpoint.Columns

/-! What warnings say about fields. Checks and generators decide by tables of their own, and the warnings of
an accepted configuration still tell what its generators leave out: bounds that become no constraint, choices
that are not listed, fields that clients do not write, and filters that are no parameters. -/

namespace ApiScaffold

/-! ### What is left out -/

namespace Schema

/-- Whether a constraint states a bound. -/
def Constraint.isBound : Constraint → Bool
  | .pattern _ => false
  | _ => true

/-- Only lengths and values have bounds. -/
theorem typeEntry_bounds_eq_none {type : FieldType} :
    (typeEntry type).bounds = none ↔ Check.isLengthType type = false ∧ Check.isNumericType type = false := by
  cases type <;> decide

theorem constraintOf_eq_nil {make : Int → Constraint} {bound : Option Number} {constraints : List Constraint}
    (h : constraintOf make bound = .ok constraints) : constraints = [] ↔ bound = none := by
  cases bound with
  | none =>
      obtain rfl := Except.ok.inj h
      exact iff_of_true rfl rfl
  | some n =>
      obtain ⟨length, -, rfl⟩ := Outcome.map_eq_ok.mp h
      exact iff_of_false (List.cons_ne_nil _ _) (Option.some_ne_none n)

/-- Bounds make no constraints exactly if there are none or the type has no use for them. -/
theorem boundConstraints_eq_nil {field : FieldSpec} {constraints : List Constraint}
    (h : boundConstraints field = .ok constraints) :
    constraints = [] ↔ field.bounds = [] ∨ (typeEntry field.type).bounds = none := by
  have hnone : field.bounds = [] ↔ field.lower = none ∧ field.upper = none := by
    rw [FieldSpec.bounds, List.append_eq_nil_iff, Option.toList_eq_nil_iff, Option.toList_eq_nil_iff]
  rw [boundConstraints] at h
  rw [hnone]
  split at h
  · rename_i hkind
    obtain rfl := Except.ok.inj h
    exact iff_of_true rfl (Or.inr hkind)
  · rename_i hkind
    obtain rfl := Except.ok.inj h
    simp [hkind]
  · rename_i hkind
    obtain ⟨lower, hlower, h⟩ := Outcome.bind_eq_ok.mp h
    obtain ⟨upper, hupper, h⟩ := Outcome.bind_eq_ok.mp h
    obtain rfl := Except.ok.inj h
    rw [List.append_eq_nil_iff, constraintOf_eq_nil hlower, constraintOf_eq_nil hupper, hkind]
    simp

theorem isBound_of_mem_boundConstraints {field : FieldSpec} {constraints : List Constraint}
    (h : boundConstraints field = .ok constraints) {c : Constraint} (hc : c ∈ constraints) :
    c.isBound = true := by
  obtain ⟨bound, -, hvalue⟩ := value_of_mem_boundConstraints h hc
  cases c with
  | pattern text => rcases hvalue with hvalue | ⟨length, -, hvalue⟩ <;> cases hvalue
  | _ => rfl

/-- A field has no constraint that states a bound exactly if it declares none or its type has no use for it. -/
theorem mapField_unbounded_iff {field : FieldSpec} {mapping : FieldMapping} (h : mapField field = .ok mapping) :
    (∀ c ∈ mapping.constraints, c.isBound = false) ↔
      field.bounds = [] ∨ Check.isLengthType field.type = false ∧ Check.isNumericType field.type = false := by
  obtain ⟨bounds, hbounds, hconstraints⟩ := mapField_constraints_eq h
  rw [← typeEntry_bounds_eq_none, ← boundConstraints_eq_nil hbounds, hconstraints, List.forall_mem_append]
  constructor
  · rintro ⟨hnone, -⟩
    rw [List.eq_nil_iff_forall_not_mem]
    intro c hc
    exact Bool.false_ne_true ((hnone c hc).symm.trans (isBound_of_mem_boundConstraints hbounds hc))
  · rintro rfl
    refine ⟨List.forall_mem_nil _, fun c hc => ?_⟩
    obtain ⟨text, -, rfl⟩ := List.mem_map.mp hc
    rfl

/-- The description of a field lists choices exactly if its type is chosen from a list. -/
theorem hasMember_enum (field : FieldSpec) (bounds : List Constraint) :
    (Json.object (apiSchemaOf field bounds)).hasMember "enum" = true ↔ field.type = .choice := by
  rw [Json.hasMember, Json.member?, Json.members, List.lookup_isSome_iff]
  constructor
  · rintro ⟨member, hmember, hname⟩
    rw [beq_iff_eq] at hname
    simp only [apiSchemaOf, List.mem_append, List.mem_filterMap] at hmember
    rcases hmember with (((htype | hchoice) | ⟨c, -, hc⟩) | hdefault) | hdescription
    · have hkey := key_of_mem_apiSchema htype
      rw [← hname] at hkey
      simp at hkey
    · split at hchoice
      · assumption
      · cases hchoice
    · cases c <;> cases hc <;> simp at hname
    · obtain ⟨default, -, rfl⟩ := Option.map_eq_some_iff.mp (Option.mem_toList.mp hdefault)
      simp at hname
    · obtain ⟨text, -, rfl⟩ := Option.map_eq_some_iff.mp (Option.mem_toList.mp hdescription)
      simp at hname
  · intro htype
    exact ⟨("enum", .texts field.choiceList), by simp [apiSchemaOf, htype], by simp⟩

end Schema

/-- Where names differ, the filters are the fields that are filters and whose names are free. -/
theorem mem_filtersFrom_iff {taken : List String} {fields : List FieldSpec}
    (hnodup : (fields.map FieldSpec.name).Nodup) {field : FieldSpec} (hfield : field ∈ fields) :
    field ∈ filtersFrom taken fields ↔ field.isFilter = true ∧ field.name ∉ taken := by
  induction fields generalizing taken with
  | nil => cases hfield
  | cons first rest ih =>
      obtain ⟨hfirst, hnodupRest⟩ := List.nodup_cons.mp hnodup
      have hnew : first ∉ rest := fun hmem => hfirst (List.mem_map_of_mem hmem)
      rw [filtersFrom]
      rcases List.mem_cons.mp hfield with rfl | hrest
      · have hlater : ∀ taken, field ∉ filtersFrom taken rest := fun taken hmem =>
          hnew (filtersFrom_subset taken rest hmem)
        split
        · rename_i hfilter
          simpa using hfilter
        · rename_i hfilter
          exact iff_of_false (hlater taken) (by simpa using hfilter)
      · have hname : field.name ≠ first.name := fun heq => hfirst (heq ▸ List.mem_map_of_mem hrest)
        have hne : field ≠ first := fun heq => hname (heq ▸ rfl)
        split
        · rw [List.mem_cons, or_iff_right hne, ih hnodupRest hrest, List.mem_cons, not_or,
            and_iff_right hname]
        · exact ih hnodupRest hrest

namespace Check

/-! ### What is warned of -/

section Warned

variable {resource : String} {seen : List String} {fields : List FieldSpec} {place other : Place}
  {field : FieldSpec} {type : FieldType}

/-- Where the names of fields are in order, only their collisions are found. -/
theorem mem_fieldNamesFrom_of_clean (hclean : Clean (fieldNamesFrom resource seen fields)) {finding : Finding} :
    finding ∈ fieldNamesFrom resource seen fields ↔
      ∃ field ∈ fields, finding ∈ collisions ⟨resource, field.name⟩ field := by
  induction fields generalizing seen with
  | nil => simp [fieldNamesFrom]
  | cons field rest ih =>
      rw [fieldNamesFrom] at hclean ⊢
      split at hclean
      · exact absurd hclean (not_clean_cons rfl)
      · rename_i hfresh
        rw [if_neg hfresh]
        split at hclean
        · exact absurd hclean (not_clean_cons rfl)
        · rename_i hname
          rw [if_neg hname, List.mem_append, ih (clean_append.mp hclean).2, List.exists_mem_cons_iff]

theorem mem_collisions_managed :
    Finding.managedField other ∈ collisions place field ↔ other = place ∧ field.name ∈ serverManaged := by
  simp [collisions, and_comm]

theorem mem_collisions_shadowed :
    Finding.shadowedFilter other ∈ collisions place field ↔
      other = place ∧ field.name ∈ queryParameters ∧ field.isFilter = true := by
  simp [collisions, and_comm]

theorem mem_choicesOf_ignored :
    Finding.choicesIgnored other type ∈ choicesOf place field ↔
      other = place ∧ type = field.type ∧ field.choiceList ≠ [] ∧ field.type ≠ .choice := by
  unfold choicesOf
  split
  · rename_i hchoice
    simp only [hchoice, ne_eq, not_true, and_false, iff_false]
    split
    · simp
    · split <;> simp
  · rename_i hother
    split
    · rename_i hnone
      simp [List.isEmpty_iff.mp hnone]
    · rename_i hsome
      have hne : field.choiceList ≠ [] := mt List.isEmpty_iff.mpr hsome
      simp [hne, hother]

/-- Bounds in which no error is found are ignored exactly if they are neither lengths nor values. -/
theorem mem_boundsOf_ignored {found : List Finding} (h : boundsOf place field = .ok found)
    (hclean : Clean found) :
    Finding.boundsIgnored other type ∈ found ↔
      other = place ∧ type = field.type ∧ field.bounds ≠ [] ∧ isLengthType field.type = false ∧
        isNumericType field.type = false := by
  cases boundsFound_of_boundsOf h with
  | nothing hnone => simp [hnone]
  | infinite hne => exact absurd hclean (not_clean_cons rfl)
  | ignored hne hfinite hlength hnumeric => simp [hne, hlength, hnumeric]
  | judged hfinite hused =>
      refine iff_of_false (fun hmem => ?_) fun hall => hused hall.2.2.2
      rcases List.mem_append.mp hmem with hreversed | hlengths
      · unfold reversed at hreversed
        split at hreversed
        · split at hreversed
          · cases List.mem_singleton.mp hreversed
          · cases hreversed
        · cases hreversed
      · unfold badLengths at hlengths
        split at hlengths
        · obtain ⟨bound, -, heq⟩ := List.mem_map.mp hlengths
          cases heq
        · cases hlengths

end Warned

/-- Findings about the place of a field that have the code of a warning are that warning. -/
theorem eq_warning_of_code {finding : Finding} {place : Place}
    (hcontext : finding.context = Finding.placeContext place) :
    (finding.code = "SERVER_MANAGED_FIELD" → finding = .managedField place) ∧
      (finding.code = "QUERY_PARAMETER_SHADOWED" → finding = .shadowedFilter place) ∧
      (finding.code = "ENUM_VALUES_IGNORED" → ∃ type, finding = .choicesIgnored place type) ∧
      (finding.code = "BOUNDS_IGNORED" → ∃ type, finding = .boundsIgnored place type) := by
  cases finding with
  | relation other text flaw => cases flaw <;> simp [Finding.code, RelationFlaw.code]
  | managedField other | shadowedFilter other => simp [Finding.code, placeContext_inj hcontext]
  | choicesIgnored other type | boundsIgnored other type => simp [Finding.code, placeContext_inj hcontext]
  | _ => simp [Finding.code]

end Check

open Check

namespace ApiConfig.Accepted

variable {config : ApiConfig} {report : Report} {resource : ResourceSpec} {field : FieldSpec}

/-- A place of an accepted configuration belongs to one field. -/
theorem exists_place_iff (h : config.Accepted) (hresource : resource ∈ config.resources)
    (hfield : field ∈ resource.fields) (warned : FieldSpec → Prop) :
    (∃ other ∈ config.resources, ∃ otherField ∈ other.fields,
        place resource field = place other otherField ∧ warned otherField) ↔ warned field := by
  constructor
  · rintro ⟨other, hother, otherField, hotherField, hplace, hwarned⟩
    obtain ⟨hname, hfieldName⟩ := Place.mk.inj hplace
    obtain rfl := List.inj_on_of_nodup_map h.resourceNames_nodup hother hresource hname.symm
    obtain rfl := List.inj_on_of_nodup_map (h.fieldNames_nodup hresource) hotherField hfield
      hfieldName.symm
    exact hwarned
  · exact fun hwarned => ⟨resource, hresource, field, hfield, rfl, hwarned⟩

theorem mem_fieldNames_iff (h : config.Accepted) {finding : Finding} :
    finding ∈ Check.fieldNames config ↔
      ∃ resource ∈ config.resources, ∃ field ∈ resource.fields,
        finding ∈ collisions (place resource field) field := by
  rw [Check.fieldNames, List.mem_flatMap]
  refine exists_congr fun resource => and_congr_right fun hresource => ?_
  exact mem_fieldNamesFrom_of_clean (clean_flatMap.mp h.fieldNames resource hresource)

/-! ### Warnings in reports -/

theorem shows_managedField (h : config.Accepted) (hreport : config.report = .ok report)
    (hresource : resource ∈ config.resources) (hfield : field ∈ resource.fields) :
    report.Shows "SERVER_MANAGED_FIELD" (Finding.placeContext (place resource field)) ↔
      field.name ∈ serverManaged := by
  rw [← h.exists_place_iff hresource hfield fun field => field.name ∈ serverManaged]
  simp only [← mem_collisions_managed, ← h.mem_fieldNames_iff]
  exact report_shows_of_unique hreport (.managedField (place resource field)) rfl
    fun _ hcode hcontext => (eq_warning_of_code hcontext).1 hcode

theorem shows_shadowedFilter (h : config.Accepted) (hreport : config.report = .ok report)
    (hresource : resource ∈ config.resources) (hfield : field ∈ resource.fields) :
    report.Shows "QUERY_PARAMETER_SHADOWED" (Finding.placeContext (place resource field)) ↔
      field.name ∈ queryParameters ∧ field.isFilter = true := by
  rw [← h.exists_place_iff hresource hfield fun field =>
    field.name ∈ queryParameters ∧ field.isFilter = true]
  simp only [← mem_collisions_shadowed, ← h.mem_fieldNames_iff]
  exact report_shows_of_unique hreport (.shadowedFilter (place resource field)) rfl
    fun _ hcode hcontext => (eq_warning_of_code hcontext).2.1 hcode

theorem shows_choicesIgnored (h : config.Accepted) (hreport : config.report = .ok report)
    (hresource : resource ∈ config.resources) (hfield : field ∈ resource.fields) :
    report.Shows "ENUM_VALUES_IGNORED" (Finding.placeContext (place resource field)) ↔
      field.choiceList ≠ [] ∧ field.type ≠ .choice := by
  rw [report_shows_iff hreport, ← h.exists_place_iff hresource hfield fun field =>
    field.choiceList ≠ [] ∧ field.type ≠ .choice]
  constructor
  · rintro ⟨finding, ⟨hcode, hcontext⟩, found, hfound, hmem⟩
    obtain ⟨type, rfl⟩ := (eq_warning_of_code hcontext).2.2.1 hcode
    obtain rfl := Except.ok.inj hfound
    obtain ⟨other, hother, otherField, hotherField, hfinding⟩ := mem_onFields.mp hmem
    obtain ⟨hplace, -, hignored⟩ := mem_choicesOf_ignored.mp hfinding
    exact ⟨other, hother, otherField, hotherField, hplace, hignored⟩
  · rintro ⟨other, hother, otherField, hotherField, hplace, hignored⟩
    refine ⟨.choicesIgnored (place resource field) otherField.type, ⟨rfl, rfl⟩, _, rfl, ?_⟩
    exact mem_onFields.mpr ⟨other, hother, otherField, hotherField,
      mem_choicesOf_ignored.mpr ⟨hplace, rfl, hignored⟩⟩

theorem shows_boundsIgnored (h : config.Accepted) (hreport : config.report = .ok report)
    (hresource : resource ∈ config.resources) (hfield : field ∈ resource.fields) :
    report.Shows "BOUNDS_IGNORED" (Finding.placeContext (place resource field)) ↔
      field.bounds ≠ [] ∧ isLengthType field.type = false ∧ isNumericType field.type = false := by
  obtain ⟨found, hfound, hclean⟩ := h.bounds
  rw [report_shows_iff hreport, ← h.exists_place_iff hresource hfield fun field =>
    field.bounds ≠ [] ∧ isLengthType field.type = false ∧ isNumericType field.type = false]
  constructor
  · rintro ⟨finding, ⟨hcode, hcontext⟩, found', hfound', hmem⟩
    obtain ⟨type, rfl⟩ := (eq_warning_of_code hcontext).2.2.2 hcode
    obtain rfl := Except.ok.inj (hfound.symm.trans hfound')
    obtain ⟨other, hother, otherField, hotherField, ofField, hofField, hfinding⟩ :=
      (mem_onFieldsWithFaults hfound).mp hmem
    obtain ⟨ofField', hofField', hcleanField⟩ := exists_clean_onField hfound hclean hother hotherField
    obtain rfl := Except.ok.inj (hofField.symm.trans hofField')
    obtain ⟨hplace, -, hignored⟩ := (mem_boundsOf_ignored hofField hcleanField).mp hfinding
    exact ⟨other, hother, otherField, hotherField, hplace, hignored⟩
  · rintro ⟨other, hother, otherField, hotherField, hplace, hignored⟩
    obtain ⟨ofField, hofField, hcleanField⟩ := exists_clean_onField hfound hclean hother hotherField
    refine ⟨.boundsIgnored (place resource field) otherField.type, ⟨rfl, rfl⟩, found, hfound, ?_⟩
    exact (mem_onFieldsWithFaults hfound).mpr ⟨other, hother, otherField, hotherField, ofField, hofField,
      (mem_boundsOf_ignored hofField hcleanField).mpr ⟨hplace, rfl, hignored⟩⟩

end ApiConfig.Accepted

/-! ### The truth of warnings -/

/-- The warnings about a field tell what is generated of it. -/
structure FieldSpec.WarningsHold (resource : ResourceSpec) (field : FieldSpec) (report : Report)
    (mapping : Schema.FieldMapping) (resolved : Schema.Mappings) : Prop where
  bounds : report.Shows "BOUNDS_IGNORED" (Finding.placeContext (place resource field)) ↔
    field.bounds ≠ [] ∧ ∀ c ∈ mapping.constraints, c.isBound = false
  choices : report.Shows "ENUM_VALUES_IGNORED" (Finding.placeContext (place resource field)) ↔
    field.choiceList ≠ [] ∧ (Json.object mapping.apiSchema).hasMember "enum" = false
  create : report.Shows "SERVER_MANAGED_FIELD" (Finding.placeContext (place resource field)) ↔
    field.name ∉ (Schema.createModel resource resolved).attributes.map Schema.Attribute.name
  update : report.Shows "SERVER_MANAGED_FIELD" (Finding.placeContext (place resource field)) ↔
    field.name ∉ (Schema.updateModel resource resolved).attributes.map Schema.Attribute.name
  filter : report.Shows "QUERY_PARAMETER_SHADOWED" (Finding.placeContext (place resource field)) ↔
    field.isFilter = true ∧ field ∉ resource.queryFilters

section Truth

variable {config : ApiConfig} {report : Report} {resource : ResourceSpec} {field : FieldSpec}

/-- Clients write the fields that have no name of the server. -/
theorem ResourceSpec.name_not_mem_clientFields (hfield : field ∈ resource.fields) :
    field.name ∉ resource.clientFields.map FieldSpec.name ↔ field.name ∈ serverManaged := by
  constructor
  · intro habsent
    by_contra hfree
    refine habsent (List.mem_map_of_mem (List.mem_filter.mpr ⟨hfield, ?_⟩))
    simpa using hfree
  · intro hmanaged hmem
    obtain ⟨other, hother, hname⟩ := List.mem_map.mp hmem
    obtain ⟨-, hfree⟩ := List.mem_filter.mp hother
    rw [hname] at hfree
    simp [hmanaged] at hfree

theorem ApiConfig.Accepted.warningsHold (h : config.Accepted) (hreport : config.report = .ok report)
    (hresource : resource ∈ config.resources) (hfield : field ∈ resource.fields)
    {mapping : Schema.FieldMapping} (hmapping : Schema.mapField field = .ok mapping)
    (resolved : Schema.Mappings) : field.WarningsHold resource report mapping resolved where
  bounds := by
    rw [h.shows_boundsIgnored hreport hresource hfield, Schema.mapField_unbounded_iff hmapping]
    exact and_congr_right fun hne => (or_iff_right hne).symm
  choices := by
    obtain ⟨-, -, bounds, -, hschema⟩ := Schema.mapField_eq_ok hmapping
    rw [h.shows_choicesIgnored hreport hresource hfield, hschema, ← Bool.not_eq_true,
      Schema.hasMember_enum]
  create := by
    rw [h.shows_managedField hreport hresource hfield, Endpoint.createModel_names,
      ResourceSpec.name_not_mem_clientFields hfield]
  update := by
    rw [h.shows_managedField hreport hresource hfield, Schema.updateModel_names,
      ResourceSpec.name_not_mem_clientFields hfield]
  filter := by
    rw [h.shows_shadowedFilter hreport hresource hfield, ResourceSpec.queryFilters,
      mem_filtersFrom_iff (h.fieldNames_nodup hresource) hfield]
    tauto

/-- **Warnings tell the truth about what is generated.** An accepted configuration is reported on and all its
fields can be resolved, and the warnings about each field are there exactly if its bounds are no constraint,
its choices are not listed, its attribute is in neither model of a request, and its filter is left out. -/
theorem ApiConfig.warnings_hold (h : config.Accepted) :
    ∃ report, config.report = .ok report ∧ ∀ resource ∈ config.resources,
      ∃ resolved, Schema.mappings resource = .ok resolved ∧ ∀ field ∈ resource.fields,
        ∃ mapping, Schema.mapField field = .ok mapping ∧
          field.WarningsHold resource report mapping resolved := by
  obtain ⟨report, hreport, -⟩ := id h
  refine ⟨report, hreport, fun resource hresource => ?_⟩
  have hmapped : ∀ field ∈ resource.fields, ∃ mapping, Schema.mapField field = .ok mapping :=
    fun field hfield => h.exists_mapField hresource hfield
  obtain ⟨resolved, hresolved⟩ := Schema.exists_mappings hmapped
  refine ⟨resolved, hresolved, fun field hfield => ?_⟩
  obtain ⟨mapping, hmapping⟩ := hmapped field hfield
  exact ⟨mapping, hmapping, h.warningsHold hreport hresource hfield hmapping resolved⟩

end Truth

namespace Blog

def keyField : FieldSpec := { name := "id", type := .uuid }

def limitField : FieldSpec := { name := "limit", type := .integer, searchable := true }

/-- Authors with a declared key, and with a limit that is filtered by. -/
def limited : ResourceSpec := { author with fields := [keyField, limitField] }

def limitedConfig : ApiConfig := { config with resources := [limited] }

/-- The key cannot be written and the limit is no filter; the report says so. -/
theorem warnings_limited :
    limitedConfig.Accepted ∧ ∃ report, limitedConfig.report = .ok report ∧
      report.Shows "SERVER_MANAGED_FIELD" [("resource", .text "Author"), ("field", .text "id")] ∧
      report.Shows "QUERY_PARAMETER_SHADOWED" [("resource", .text "Author"), ("field", .text "limit")] := by
  have haccepted : limitedConfig.Accepted := by decide +kernel
  obtain ⟨report, hreport, htrue⟩ := ApiConfig.warnings_hold haccepted
  obtain ⟨resolved, -, hfields⟩ := htrue limited (by simp [limitedConfig])
  obtain ⟨keyMapping, -, hkey⟩ := hfields keyField (by simp [limited])
  obtain ⟨limitMapping, -, hlimit⟩ := hfields limitField (by simp [limited])
  have hunwritten : keyField.name ∉ limited.clientFields.map FieldSpec.name := by decide +kernel
  rw [← Endpoint.createModel_names resolved] at hunwritten
  exact ⟨haccepted, report, hreport, hkey.create.mpr hunwritten, hlimit.filter.mpr (by decide +kernel)⟩

end Blog

end ApiScaffold
