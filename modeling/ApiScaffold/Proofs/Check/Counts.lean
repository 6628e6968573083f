import Mathlib
import ApiScaffold.Proofs.Check.Coherence

/-! How many errors the checks of names find. A name is reported as often as it comes up again, once if it
does not pass, and a table as often as a name that passes leads to it again. -/

namespace ApiScaffold

/-! ### Names that come up again -/

/-- The names that come up again, given those that have come up. -/
def repeats (seen : List String) : List String → List String
  | [] => []
  | name :: rest =>
    if name ∈ seen then name :: repeats seen rest else repeats (name :: seen) rest

/-- The names that come up for the first time, each once. -/
def newcomers (seen names : List String) : List String := (names.filter (· ∉ seen)).eraseDups

section Newcomers

variable {seen rest : List String} {name : String}

theorem newcomers_of_mem (h : name ∈ seen) : newcomers seen (name :: rest) = newcomers seen rest := by
  rw [newcomers, List.filter_cons_of_neg (by simpa using h), newcomers]

theorem newcomers_of_not_mem (h : name ∉ seen) :
    newcomers seen (name :: rest) = name :: newcomers (name :: seen) rest := by
  rw [newcomers, List.filter_cons_of_pos (by simpa using h), List.eraseDups_cons, List.filter_filter,
    newcomers]
  refine congrArg _ (congrArg _ (List.filter_congr fun other _ => ?_))
  rw [Bool.eq_iff_iff]
  simp

theorem newcomers_nil (names : List String) : newcomers [] names = names.eraseDups := by
  simp [newcomers]

/-- Every name either comes up again or is new. -/
theorem length_repeats (seen names : List String) :
    (repeats seen names).length + (newcomers seen names).length = names.length := by
  induction names generalizing seen with
  | nil => rfl
  | cons name rest ih =>
      rw [repeats]
      by_cases h : name ∈ seen
      · have hrest := ih seen
        rw [if_pos h, newcomers_of_mem h, List.length_cons, List.length_cons]
        omega
      · have hrest := ih (name :: seen)
        rw [if_neg h, newcomers_of_not_mem h, List.length_cons, List.length_cons]
        omega

theorem length_repeats_nil (names : List String) :
    (repeats [] names).length + names.eraseDups.length = names.length := by
  rw [← newcomers_nil, length_repeats]

end Newcomers

namespace Check

/-! ### Errors of a code -/

/-- The errors of a code among findings. -/
def errorsOf (code : String) (findings : List Finding) : List Finding :=
  findings.filter fun finding => finding.isError && finding.code == code

section Errors

variable {code : String} {finding : Finding} {findings rest : List Finding}

theorem errorsOf_append (code : String) (first second : List Finding) :
    errorsOf code (first ++ second) = errorsOf code first ++ errorsOf code second := List.filter_append ..

theorem errorsOf_cons_self (herror : finding.isError = true) (hcode : finding.code = code) :
    errorsOf code (finding :: rest) = finding :: errorsOf code rest := by
  rw [errorsOf, List.filter_cons_of_pos (by simp [herror, hcode]), errorsOf]

theorem errorsOf_cons_of_ne (hcode : finding.code ≠ code) :
    errorsOf code (finding :: rest) = errorsOf code rest := by
  rw [errorsOf, List.filter_cons_of_neg (by simp [hcode]), errorsOf]

theorem errorsOf_eq_nil (h : ∀ finding ∈ findings, finding.isError = true → finding.code ≠ code) :
    errorsOf code findings = [] := by
  rw [errorsOf, List.filter_eq_nil_iff]
  intro finding hfinding
  simpa using h finding hfinding

theorem errorsOf_of_clean (h : Clean findings) : errorsOf code findings = [] := by
  refine errorsOf_eq_nil fun finding hfinding herror => ?_
  rw [h finding hfinding] at herror
  cases herror

end Errors

/-! ### Names in order -/

/-- How names are judged: which pass, what is found where one comes up again and where one does not pass, and
the codes of other errors that a name can have. -/
structure NameRule where
  passes : String → Bool
  again : String → Finding
  bad : String → Finding
  againCode : String
  badCode : String
  others : List String
  again_error : ∀ name, (again name).isError = true
  again_code : ∀ name, (again name).code = againCode
  bad_error : ∀ name, (bad name).isError = true
  bad_code : ∀ name, (bad name).code = badCode
  codes_nodup : (againCode :: badCode :: others).Nodup

/-- What is found where names are judged in order, given those that have come up. -/
inductive NameRule.Finds (rule : NameRule) : List String → List String → List Finding → Prop where
  | nil (seen : List String) : rule.Finds seen [] []
  | again {seen rest : List String} {name : String} {found : List Finding} (h : name ∈ seen)
    (hrest : rule.Finds seen rest found) : rule.Finds seen (name :: rest) (rule.again name :: found)
  | bad {seen rest : List String} {name : String} {found : List Finding} (h : name ∉ seen)
    (hbad : rule.passes name = false) (hrest : rule.Finds (name :: seen) rest found) :
    rule.Finds seen (name :: rest) (rule.bad name :: found)
  | passed {seen rest : List String} {name : String} {own found : List Finding} (h : name ∉ seen)
    (hpasses : rule.passes name = true)
    (hown : ∀ finding ∈ own, finding.isError = true → finding.code ∈ rule.others)
    (hrest : rule.Finds (name :: seen) rest found) : rule.Finds seen (name :: rest) (own ++ found)

namespace NameRule.Finds

variable {rule : NameRule} {seen names : List String} {found : List Finding}

/-- A name is found again as often as it comes up again. -/
theorem again_errors (h : rule.Finds seen names found) :
    errorsOf rule.againCode found = (repeats seen names).map rule.again := by
  have hcodes := rule.codes_nodup
  simp only [List.nodup_cons, List.mem_cons, not_or] at hcodes
  obtain ⟨⟨hbadCode, hothers⟩, -⟩ := hcodes
  induction h with
  | nil => rfl
  | again hseen _ ih =>
      rw [errorsOf_cons_self (rule.again_error _) (rule.again_code _), ih, repeats, if_pos hseen,
        List.map_cons]
  | bad hseen _ _ ih =>
      rw [errorsOf_cons_of_ne (by rw [rule.bad_code]; exact Ne.symm hbadCode), ih, repeats, if_neg hseen]
  | passed hseen _ hown _ ih =>
      rw [errorsOf_append, ih, repeats, if_neg hseen, errorsOf_eq_nil, List.nil_append]
      intro finding hfinding herror hcode
      exact hothers (hcode ▸ hown finding hfinding herror)

/-- A name that does not pass is found bad once. -/
theorem bad_errors (h : rule.Finds seen names found) :
    errorsOf rule.badCode found =
      ((newcomers seen names).filter fun name => !rule.passes name).map rule.bad := by
  have hcodes := rule.codes_nodup
  simp only [List.nodup_cons, List.mem_cons, not_or] at hcodes
  obtain ⟨⟨hagainCode, -⟩, hothers, -⟩ := hcodes
  induction h with
  | nil => rfl
  | again hseen _ ih =>
      rw [errorsOf_cons_of_ne (by rwa [rule.again_code]), ih, newcomers_of_mem hseen]
  | bad hseen hbad _ ih =>
      rw [errorsOf_cons_self (rule.bad_error _) (rule.bad_code _), ih, newcomers_of_not_mem hseen,
        List.filter_cons_of_pos (by simp [hbad]), List.map_cons]
  | passed hseen hpasses hown _ ih =>
      rw [errorsOf_append, ih, newcomers_of_not_mem hseen, List.filter_cons_of_neg (by simp [hpasses]),
        errorsOf_eq_nil, List.nil_append]
      intro finding hfinding herror hcode
      exact hothers (hcode ▸ hown finding hfinding herror)

/-- No other error is found. -/
theorem code_mem (h : rule.Finds seen names found) :
    ∀ finding ∈ found, finding.isError = true →
      finding.code ∈ rule.againCode :: rule.badCode :: rule.others := by
  induction h with
  | nil => exact List.forall_mem_nil _
  | again _ _ ih =>
      refine List.forall_mem_cons.mpr ⟨fun _ => ?_, ih⟩
      rw [rule.again_code]
      exact List.mem_cons_self
  | bad _ _ _ ih =>
      refine List.forall_mem_cons.mpr ⟨fun _ => ?_, ih⟩
      rw [rule.bad_code]
      exact List.mem_cons_of_mem _ List.mem_cons_self
  | passed _ _ hown _ ih =>
      refine List.forall_mem_append.mpr ⟨fun finding hfinding herror => ?_, ih⟩
      exact List.mem_cons_of_mem _ (List.mem_cons_of_mem _ (hown finding hfinding herror))

end NameRule.Finds

/-! ### Resources -/

/-- The rule for names of resources. -/
def resourceNameRule : NameRule where
  passes := Naming.isIdentifier
  again := .repeatedResource
  bad := .badResourceName
  againCode := "DUPLICATE_RESOURCE_NAME"
  badCode := "INVALID_RESOURCE_NAME"
  others := ["DUPLICATE_TABLE_NAME"]
  again_error _ := rfl
  again_code _ := rfl
  bad_error _ := rfl
  bad_code _ := rfl
  codes_nodup := by decide

theorem isSome_lookup_iff {α : Type} {entries : List (String × α)} {name : String} :
    (entries.lookup name).isSome = true ↔ name ∈ entries.map (·.1) := by
  rw [Option.isSome_iff_ne_none, not_iff_comm]
  constructor
  · exact lookup_eq_none_of_not_mem
  · rw [List.lookup_eq_none_iff]
    intro h hmem
    obtain ⟨entry, hentry, rfl⟩ := List.mem_map.mp hmem
    simpa using h entry hentry

theorem finds_resourceNamesFrom (seen : List String) (tables : List (String × String)) (names : List String) :
    resourceNameRule.Finds seen names (resourceNamesFrom seen tables names) := by
  induction names generalizing seen tables with
  | nil => exact .nil seen
  | cons name rest ih =>
      rw [resourceNamesFrom]
      by_cases hseen : name ∈ seen
      · rw [if_pos (List.contains_iff_mem.mpr hseen)]
        exact .again hseen (ih seen tables)
      · rw [if_neg (mt List.contains_iff_mem.mp hseen)]
        cases hname : Naming.isIdentifier name with
        | false => exact .bad hseen hname (ih (name :: seen) tables)
        | true =>
            rw [Bool.not_true, if_neg Bool.false_ne_true]
            dsimp only
            have hreserved : ∀ finding ∈ (if isReserved (Naming.tableName name) then
                [Finding.reservedTable name (Naming.tableName name)] else []), finding.isError = true →
                  finding.code ∈ resourceNameRule.others := by
              intro finding hfinding herror
              rw [clean_ite_of_warning rfl finding hfinding] at herror
              cases herror
            split
            · refine .passed hseen hname (List.forall_mem_cons.mpr ⟨fun _ => ?_, hreserved⟩)
                (ih (name :: seen) tables)
              exact List.mem_singleton_self _
            · exact .passed hseen hname hreserved (ih (name :: seen) _)

/-- A table is found taken as often as a name that passes leads to it again. -/
theorem length_tableErrors (seen : List String) (tables : List (String × String)) (names : List String) :
    (errorsOf "DUPLICATE_TABLE_NAME" (resourceNamesFrom seen tables names)).length =
      (repeats (tables.map (·.1))
        (((newcomers seen names).filter Naming.isIdentifier).map Naming.tableName)).length := by
  induction names generalizing seen tables with
  | nil => rfl
  | cons name rest ih =>
      rw [resourceNamesFrom]
      by_cases hseen : name ∈ seen
      · rw [if_pos (List.contains_iff_mem.mpr hseen), newcomers_of_mem hseen,
          errorsOf_cons_of_ne (by simp [Finding.code]), ih]
      · rw [if_neg (mt List.contains_iff_mem.mp hseen), newcomers_of_not_mem hseen]
        cases hname : Naming.isIdentifier name with
        | false =>
            rw [Bool.not_false, if_pos rfl, errorsOf_cons_of_ne (by simp [Finding.code]), ih,
              List.filter_cons_of_neg (by simp [hname])]
        | true =>
            rw [Bool.not_true, if_neg Bool.false_ne_true, List.filter_cons_of_pos hname, List.map_cons,
              repeats]
            dsimp only
            -- That a table is reserved is a warning and does not count.
            have hreserved : errorsOf "DUPLICATE_TABLE_NAME" (if isReserved (Naming.tableName name) then
                [Finding.reservedTable name (Naming.tableName name)] else []) = [] :=
              errorsOf_of_clean (clean_ite_of_warning rfl)
            have hmem := @isSome_lookup_iff _ tables (Naming.tableName name)
            cases hlookup : tables.lookup (Naming.tableName name) with
            | some first =>
                rw [hlookup, Option.isSome_some, eq_self_iff_true, true_iff] at hmem
                have htaken : ∀ others, errorsOf "DUPLICATE_TABLE_NAME"
                    (.repeatedTable first name (Naming.tableName name) :: others) =
                      .repeatedTable first name (Naming.tableName name) ::
                        errorsOf "DUPLICATE_TABLE_NAME" others := fun _ => errorsOf_cons_self rfl rfl
                dsimp only
                rw [if_pos hmem, List.cons_append, htaken, errorsOf_append, hreserved, List.nil_append,
                  List.length_cons, List.length_cons, ih]
            | none =>
                rw [hlookup, Option.isSome_none] at hmem
                dsimp only
                rw [if_neg (mt hmem.mpr Bool.false_ne_true), errorsOf_append, hreserved, List.nil_append, ih]
                rfl

/-! ### Fields -/

/-- The rule for names of fields of a resource. -/
def fieldNameRule (resource : String) : NameRule where
  passes := isFieldName
  again name := .repeatedField ⟨resource, name⟩
  bad name := .badFieldName ⟨resource, name⟩
  againCode := "DUPLICATE_FIELD_NAME"
  badCode := "INVALID_FIELD_NAME"
  others := []
  again_error _ := rfl
  again_code _ := rfl
  bad_error _ := rfl
  bad_code _ := rfl
  codes_nodup := by decide

theorem finds_fieldNamesFrom (resource : String) (seen : List String) (fields : List FieldSpec) :
    (fieldNameRule resource).Finds seen (fields.map FieldSpec.name) (fieldNamesFrom resource seen fields) := by
  induction fields generalizing seen with
  | nil => exact .nil seen
  | cons field rest ih =>
      rw [fieldNamesFrom, List.map_cons]
      by_cases hseen : field.name ∈ seen
      · rw [if_pos (List.contains_iff_mem.mpr hseen)]
        exact .again hseen (ih seen)
      · rw [if_neg (mt List.contains_iff_mem.mp hseen)]
        cases hname : isFieldName field.name with
        | false => exact .bad hseen hname (ih (field.name :: seen))
        | true =>
            refine .passed hseen hname (fun finding hfinding herror => ?_) (ih (field.name :: seen))
            rw [clean_collisions _ _ finding hfinding] at herror
            cases herror

end Check

/-! ### Reports -/

/-- The errors of a code in a report. -/
def Report.errorsOf (report : Report) (code : String) : List Issue :=
  report.errors.filter fun issue => issue.code == code

namespace Check

theorem errorsOf_report (findings : List Finding) (code : String) :
    (report findings).errorsOf code = (errorsOf code findings).map Finding.issue := by
  rw [Report.errorsOf, Report.errors, report, List.filter_map, List.filter_map, List.filter_filter,
    errorsOf]
  refine congrArg _ (List.filter_congr fun finding _ => ?_)
  rw [Bool.and_comm]
  rfl

theorem forall_errors_report {findings : List Finding} {p : Issue → Prop} :
    (∀ issue ∈ (report findings).errors, p issue) ↔
      ∀ finding ∈ findings, finding.isError = true → p finding.issue := by
  rw [Report.errors, report, List.filter_map, List.forall_mem_map]
  simp only [List.mem_filter, and_imp]
  rfl

end Check

/-- What a report says of the names of resources: how often names and tables come up again, and once each name
that does not pass. -/
structure ApiConfig.CountsResourceNames (config : ApiConfig) (report : Report) : Prop where
  repeated : (report.errorsOf "DUPLICATE_RESOURCE_NAME").length + config.resourceNames.eraseDups.length =
    config.resources.length
  bad : (report.errorsOf "INVALID_RESOURCE_NAME").map Issue.context =
    (config.resourceNames.eraseDups.filter fun name => !Naming.isIdentifier name).map
      fun name => [("resource", .text name)]
  tables : (report.errorsOf "DUPLICATE_TABLE_NAME").length +
      ((config.resourceNames.eraseDups.filter Naming.isIdentifier).map Naming.tableName).eraseDups.length =
    (config.resourceNames.eraseDups.filter Naming.isIdentifier).length
  codes : ∀ issue ∈ report.errors,
    issue.code ∈ ["DUPLICATE_RESOURCE_NAME", "INVALID_RESOURCE_NAME", "DUPLICATE_TABLE_NAME"]
  clean : report.hasErrors = false ↔
    config.resourceNames.Nodup ∧ (∀ name ∈ config.resourceNames, Naming.isIdentifier name = true) ∧
      (config.resourceNames.map Naming.tableName).Nodup

/-- What a report says of the names of fields, each resource for itself. -/
structure ApiConfig.CountsFieldNames (config : ApiConfig) (report : Report) : Prop where
  repeated : (report.errorsOf "DUPLICATE_FIELD_NAME").length +
      (config.resources.map fun resource => resource.fieldNames.eraseDups.length).sum =
    (config.resources.map fun resource => resource.fields.length).sum
  bad : (report.errorsOf "INVALID_FIELD_NAME").map Issue.context =
    config.resources.flatMap fun resource =>
      (resource.fieldNames.eraseDups.filter fun name => !Check.isFieldName name).map
        fun name => Check.Finding.placeContext ⟨resource.name, name⟩
  codes : ∀ issue ∈ report.errors, issue.code ∈ ["DUPLICATE_FIELD_NAME", "INVALID_FIELD_NAME"]
  clean : report.hasErrors = false ↔
    ∀ resource ∈ config.resources, resource.fieldNames.Nodup ∧
      ∀ name ∈ resource.fieldNames, Check.isFieldName name = true

namespace Check

theorem countsResourceNames (config : ApiConfig) :
    config.CountsResourceNames (report (resourceNames config)) where
  repeated := by
    have hfound : errorsOf "DUPLICATE_RESOURCE_NAME" (resourceNames config) =
        (repeats [] config.resourceNames).map .repeatedResource :=
      (finds_resourceNamesFrom [] [] config.resourceNames).again_errors
    rw [errorsOf_report, List.length_map, hfound, List.length_map, length_repeats_nil,
      ApiConfig.resourceNames, List.length_map]
  bad := by
    have hfound : errorsOf "INVALID_RESOURCE_NAME" (resourceNames config) =
        ((newcomers [] config.resourceNames).filter fun name => !Naming.isIdentifier name).map
          .badResourceName :=
      (finds_resourceNamesFrom [] [] config.resourceNames).bad_errors
    rw [errorsOf_report, List.map_map, hfound, newcomers_nil, List.map_map]
    rfl
  tables := by
    have hfound := length_tableErrors [] [] config.resourceNames
    rw [newcomers_nil, List.map_nil] at hfound
    rw [errorsOf_report, List.length_map, resourceNames, hfound, length_repeats_nil, List.length_map]
  codes := forall_errors_report.mpr (finds_resourceNamesFrom [] [] config.resourceNames).code_mem
  clean := by
    rw [report_hasErrors_eq_false]
    constructor
    · intro h
      have hadmitted := admitted_of_clean h
      exact ⟨hadmitted.nodup, hadmitted.identifiers, hadmitted.tables_nodup⟩
    · rintro ⟨hnodup, hidentifiers, htables⟩
      exact clean_of_admitted ⟨fun _ _ => List.not_mem_nil, hnodup, hidentifiers,
        fun _ _ => List.not_mem_nil, htables⟩

theorem errorsOf_flatMap {α : Type} {code : String} {items : List α} {found : α → List Finding} :
    errorsOf code (items.flatMap found) = items.flatMap fun item => errorsOf code (found item) :=
  List.filter_flatMap ..

theorem countsFieldNames (config : ApiConfig) : config.CountsFieldNames (report (fieldNames config)) where
  repeated := by
    have hfound : ∀ resource : ResourceSpec,
        (errorsOf "DUPLICATE_FIELD_NAME" (fieldNamesFrom resource.name [] resource.fields)).length +
            resource.fieldNames.eraseDups.length = resource.fields.length := by
      intro resource
      have hagain : errorsOf "DUPLICATE_FIELD_NAME" (fieldNamesFrom resource.name [] resource.fields) =
          (repeats [] resource.fieldNames).map fun name => .repeatedField ⟨resource.name, name⟩ :=
        (finds_fieldNamesFrom resource.name [] resource.fields).again_errors
      rw [hagain, List.length_map, length_repeats_nil, ResourceSpec.fieldNames, List.length_map]
    rw [errorsOf_report, List.length_map, fieldNames, errorsOf_flatMap, List.length_flatMap,
      ← List.sum_map_add]
    exact congrArg List.sum (List.map_congr_left fun resource _ => hfound resource)
  bad := by
    rw [errorsOf_report, List.map_map, fieldNames, errorsOf_flatMap, List.map_flatMap]
    refine List.flatMap_congr fun resource _ => ?_
    have hfound : errorsOf "INVALID_FIELD_NAME" (fieldNamesFrom resource.name [] resource.fields) =
        ((newcomers [] resource.fieldNames).filter fun name => !isFieldName name).map
          fun name => .badFieldName ⟨resource.name, name⟩ :=
      (finds_fieldNamesFrom resource.name [] resource.fields).bad_errors
    rw [hfound, newcomers_nil, List.map_map]
    rfl
  codes := by
    refine forall_errors_report.mpr fun finding hfinding => ?_
    obtain ⟨resource, -, hmem⟩ := List.mem_flatMap.mp hfinding
    exact (finds_fieldNamesFrom resource.name [] resource.fields).code_mem finding hmem
  clean := by
    rw [report_hasErrors_eq_false, fieldNames, clean_flatMap]
    refine forall₂_congr fun resource _ => ⟨fun h => ?_, fun h => ?_⟩
    · obtain ⟨-, hnodup, hnames⟩ := fieldNames_of_clean h
      exact ⟨hnodup, List.forall_mem_map.mpr hnames⟩
    · exact clean_fieldNamesFrom (fun _ _ => List.not_mem_nil) h.1 (List.forall_mem_map.mp h.2)

end Check

/-- **How many errors names have.** The check of resources finds one error for each time that a name comes up
again, one for each different name that is no identifier, and, of the different names that are, one for each
that leads to a table again. The check of fields does so for each resource, without tables. No other error is
found, so there is none exactly if all names are well-formed and differ, and the tables too. -/
theorem name_errors_counted (config : ApiConfig) :
    config.CountsResourceNames (Check.report (Check.resourceNames config)) ∧
      config.CountsFieldNames (Check.report (Check.fieldNames config)) :=
  ⟨Check.countsResourceNames config, Check.countsFieldNames config⟩

end ApiScaffold
