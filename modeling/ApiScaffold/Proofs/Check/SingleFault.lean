import Mathlib
import ApiScaffold.Proofs.Check.Coherence
import ApiScaffold.Proofs.Naming.Identifier

/-! One fault gives one error. A field of an accepted configuration is replaced by another one of its
name; only the checks that ask something of the field itself can find an error then, and of the other
fields none is found. So a relation that leads nowhere is reported once, and so are missing choices. -/

namespace ApiScaffold

open Check

/-! ### Relations as texts -/

namespace RelationTarget

theorem ofText?_append {resource field : String} (hresource : '.' ∉ resource.toList) (hsome : resource ≠ "")
    (hfield : '.' ∉ field.toList) (hsome' : field ≠ "") :
    ofText? (resource ++ "." ++ field) = some ⟨resource, field⟩ := by
  have hbefore : ∀ c ∈ resource.toList, (c != '.') = true := by
    intro c hc
    rw [bne_iff_ne]
    rintro rfl
    exact hresource hc
  have htext : (resource ++ "." ++ field).toList = resource.toList ++ '.' :: field.toList := by
    rw [String.toList_append, String.toList_append, List.append_assoc]
    rfl
  have hempty : resource.toList.isEmpty = false := by simpa using hsome
  have hempty' : field.toList.isEmpty = false := by simpa using hsome'
  rw [ofText?, htext, List.takeWhile_append_of_pos hbefore, List.dropWhile_append_of_pos hbefore,
    List.takeWhile_cons_of_neg (by decide), List.dropWhile_cons_of_neg (by decide), List.append_nil]
  simp [hempty, hempty', hfield]

theorem text_eq_of_ofText? {text : String} {target : RelationTarget} (h : ofText? text = some target) :
    text = target.resource ++ "." ++ target.field := by
  have hsplit := @List.takeWhile_append_dropWhile _ (· != '.') text.toList
  rw [ofText?] at h
  split at h
  · cases h
  · rename_i mark field hrest
    have hne : text.toList.dropWhile (· != '.') ≠ [] := hrest ▸ List.cons_ne_nil _ _
    have hmark := List.head_dropWhile_not (· != '.') hne
    simp only [hrest, List.head_cons, bne_eq_false_iff_eq] at hmark
    split at h
    · cases h
    · obtain rfl := Option.some.inj h
      rw [hrest, hmark] at hsplit
      apply String.toList_injective
      simp only [String.toList_append, String.toList_ofList, List.append_assoc]
      exact hsplit.symm

end RelationTarget

namespace ApiConfig

/-- A text names the key or a declared field of a resource, with a dot between the two names. -/
def RelationResolves (config : ApiConfig) (text : String) : Prop :=
  ∃ owner ∈ config.resources, ∃ column ∈ primaryKey :: owner.fieldNames, text = owner.name ++ "." ++ column

instance (config : ApiConfig) (text : String) : Decidable (config.RelationResolves text) :=
  inferInstanceAs (Decidable (∃ owner ∈ config.resources, ∃ column ∈ _, _))

/-- Names of an accepted configuration have no dots, so a text resolves exactly if it can be read and its
target is there. -/
theorem Accepted.relationResolves_iff {config : ApiConfig} (h : config.Accepted) {text : String} :
    config.RelationResolves text ↔ ∃ target, RelationTarget.ofText? text = some target ∧ config.Offers target := by
  constructor
  · rintro ⟨owner, howner, column, hcolumn, rfl⟩
    have hname := (h.coherent.resources owner howner).identifier
    have hidentifier : Naming.isIdentifier column = true := by
      rcases List.mem_cons.mp hcolumn with rfl | hfield
      · decide
      · exact h.isIdentifier_fieldName howner hfield
    refine ⟨⟨owner.name, column⟩, ?_, owner, howner, rfl, List.mem_cons.mp hcolumn⟩
    exact RelationTarget.ofText?_append
      (Naming.not_mem_of_isIdentifier hname (by decide) (by decide)) (Naming.ne_empty_of_isIdentifier hname)
      (Naming.not_mem_of_isIdentifier hidentifier (by decide) (by decide))
      (Naming.ne_empty_of_isIdentifier hidentifier)
  · rintro ⟨target, htarget, owner, howner, hname, hcolumn⟩
    refine ⟨owner, howner, target.field, List.mem_cons.mpr hcolumn, ?_⟩
    rw [hname]
    exact RelationTarget.text_eq_of_ofText? htarget

/-! ### A field in the place of another -/

/-- A configuration with another field in a place. -/
def setField (config : ApiConfig) (i j : Nat) (field : FieldSpec) : ApiConfig :=
  { config with
    resources := config.resources.modify i fun resource =>
      { resource with fields := resource.fields.set j field } }

section SetField

variable {config : ApiConfig} {i j : Nat} {resource : ResourceSpec} {field changed : FieldSpec}

/-- What is before and behind the place stays as it is. -/
theorem exists_setField_eq (hresource : config.resources[i]? = some resource)
    (hfield : resource.fields[j]? = some field) (changed : FieldSpec) :
    ∃ before after first rest, config.resources = before ++ resource :: after ∧
      resource.fields = first ++ field :: rest ∧
      (config.setField i j changed).resources =
        before ++ { resource with fields := first ++ changed :: rest } :: after := by
  obtain ⟨hi, hget⟩ := List.getElem?_eq_some_iff.mp hresource
  obtain ⟨hj, hget'⟩ := List.getElem?_eq_some_iff.mp hfield
  obtain ⟨before, owner, after, hsplit, hlength, hmodify⟩ := List.exists_of_modify
    (fun resource : ResourceSpec => { resource with fields := resource.fields.set j changed }) hi
  obtain ⟨first, rest, hfields, -, hset⟩ := @List.exists_of_set _ j changed _ hj
  have howner : owner = resource := by
    rw [hsplit, ← hlength] at hresource
    simpa using hresource
  subst howner
  exact ⟨before, after, first, rest, hsplit, hget' ▸ hfields, by rw [setField, hmodify, hset]⟩

/-- Names are where they were. -/
theorem setField_names (hresource : config.resources[i]? = some resource)
    (hfield : resource.fields[j]? = some field) (hname : changed.name = field.name) :
    ((config.setField i j changed).resources.map fun owner => (owner.name, owner.fieldNames)) =
      config.resources.map fun owner => (owner.name, owner.fieldNames) := by
  obtain ⟨before, after, first, rest, hsplit, hfields, hset⟩ :=
    exists_setField_eq hresource hfield changed
  rw [hset, hsplit]
  simp [ResourceSpec.fieldNames, hfields, hname]

/-- A resource of the changed configuration differs from one of the first in fields alone, and a field of it
is one of that resource or the changed one. -/
theorem mem_setField (hresource : config.resources[i]? = some resource)
    (hfield : resource.fields[j]? = some field) (hname : changed.name = field.name) {owner : ResourceSpec}
    (howner : owner ∈ (config.setField i j changed).resources) :
    ∃ origin ∈ config.resources, ∃ fields, owner = { origin with fields := fields } ∧
      fields.map FieldSpec.name = origin.fieldNames ∧
      ∀ own ∈ fields, own ∈ origin.fields ∨ origin = resource ∧ own = changed := by
  obtain ⟨before, after, first, rest, hsplit, hfields, hset⟩ :=
    exists_setField_eq hresource hfield changed
  rw [hset, List.mem_append, List.mem_cons] at howner
  rw [hsplit]
  rcases howner with hbefore | rfl | hafter
  · exact ⟨owner, by simp [hbefore], owner.fields, rfl, rfl, fun own hown => Or.inl hown⟩
  · refine ⟨resource, by simp, _, rfl, by simp [ResourceSpec.fieldNames, hfields, hname], fun own hown => ?_⟩
    rw [hfields, List.mem_append, List.mem_cons]
    rw [List.mem_append, List.mem_cons] at hown
    tauto
  · exact ⟨owner, by simp [hafter], owner.fields, rfl, rfl, fun own hown => Or.inl hown⟩

theorem offers_setField (hresource : config.resources[i]? = some resource)
    (hfield : resource.fields[j]? = some field) (hname : changed.name = field.name) {target : RelationTarget} :
    (config.setField i j changed).Offers target ↔ config.Offers target := by
  have hoffers : ∀ other : ApiConfig, other.Offers target ↔
      ∃ names ∈ other.resources.map fun owner => (owner.name, owner.fieldNames),
        names.1 = target.resource ∧ (target.field = primaryKey ∨ target.field ∈ names.2) := by
    intro other
    simp only [Offers, List.mem_map, exists_exists_and_eq_and]
  rw [hoffers, hoffers, setField_names hresource hfield hname]

theorem resourceNames_setField (hresource : config.resources[i]? = some resource)
    (hfield : resource.fields[j]? = some field) (hname : changed.name = field.name) :
    (config.setField i j changed).resourceNames = config.resourceNames := by
  have hnames := congrArg (List.map Prod.fst) (setField_names hresource hfield hname)
  rw [List.map_map, List.map_map] at hnames
  exact hnames

end SetField

end ApiConfig

namespace Check

/-! ### What the checks find -/

/-- What the check of a topic asks of a field by itself, whatever its name is. -/
def Topic.Asks (config : ApiConfig) (resource : ResourceSpec) (field : FieldSpec) : Topic → Prop
  | .choices => Clean (choicesOf (place resource field) field)
  | .relations => field.relation.isSome = true → ∃ target, field.target? = some target ∧ config.Offers target
  | .bounds => ∃ found, boundsOf (place resource field) field = .ok found ∧ Clean found
  | .defaults => ∀ default ∈ field.declaredDefault,
      ∃ found, defaultOf (place resource field) field default = .ok found ∧ Clean found
  | _ => True

section SetField

variable {config : ApiConfig} {i j : Nat} {resource : ResourceSpec} {field changed : FieldSpec}

/-- A field of an accepted configuration is all that is asked. -/
theorem asks_of_accepted (h : config.Accepted) (hresource : resource ∈ config.resources)
    (hfield : field ∈ resource.fields) (topic : Topic) : topic.Asks config resource field := by
  have hown := h.coherent.resources resource hresource
  cases topic with
  | choices => exact hown.choices field hfield
  | relations => exact h.coherent.relations resource hresource field hfield
  | bounds => exact hown.bounds field hfield
  | defaults => exact hown.defaults field hfield
  | _ => trivial

/-- A check whose question the new field answers finds no error. -/
theorem exists_clean_setField (h : config.Accepted) (hresource : config.resources[i]? = some resource)
    (hfield : resource.fields[j]? = some field) (hname : changed.name = field.name) {topic : Topic}
    (hasks : topic.Asks config resource changed) :
    ∃ found, topic.findings (config.setField i j changed) = .ok found ∧ Clean found := by
  have hmem : ∀ owner ∈ (config.setField i j changed).resources, ∀ own ∈ owner.fields,
      ∃ origin ∈ config.resources, place owner own = place origin own ∧ topic.Asks config origin own := by
    intro owner howner own hown
    obtain ⟨origin, horigin, fields, rfl, -, hfields⟩ := config.mem_setField hresource hfield hname howner
    refine ⟨origin, horigin, rfl, ?_⟩
    rcases hfields own hown with hold | ⟨rfl, rfl⟩
    · exact asks_of_accepted h horigin hold topic
    · exact hasks
  have hnames := config.resourceNames_setField hresource hfield hname
  have hcoherent := h.coherent
  cases topic with
  | resourceNames =>
      refine ⟨_, rfl, ?_⟩
      rw [resourceNames, hnames]
      exact h.resourceNames
  | fieldNames =>
      refine ⟨_, rfl, clean_flatMap.mpr fun owner howner => ?_⟩
      obtain ⟨origin, horigin, fields, rfl, hfields, -⟩ := config.mem_setField hresource hfield hname howner
      have hown := hcoherent.resources origin horigin
      refine clean_fieldNamesFrom (by simp) ?_ fun own hmem => hown.fieldNames own.name ?_
      · rw [hfields]
        exact hown.fieldNames_nodup
      · rw [← hfields]
        exact List.mem_map_of_mem hmem
  | choices =>
      refine ⟨_, rfl, clean_flatMap.mpr fun owner howner => clean_flatMap.mpr fun own hown => ?_⟩
      obtain ⟨origin, -, hplace, hclean⟩ := hmem owner howner own hown
      rw [hplace]
      exact hclean
  | relations =>
      refine ⟨_, rfl, clean_flatMap.mpr fun owner howner => clean_flatMap.mpr fun own hown => ?_⟩
      obtain ⟨origin, -, -, hoffered⟩ := hmem owner howner own hown
      refine clean_relationOf (hnames ▸ hcoherent.names_nodup) fun hsome => ?_
      obtain ⟨target, htarget, hoffers⟩ := hoffered hsome
      exact ⟨target, htarget, (config.offers_setField hresource hfield hname).mpr hoffers⟩
  | circularRelations => exact ⟨_, rfl, clean_circularRelations _⟩
  | indexes =>
      have htables : (config.setField i j changed).resources.map ResourceSpec.tableName =
          config.resources.map ResourceSpec.tableName := by
        have htables := congrArg (List.map Naming.tableName) hnames
        rw [ApiConfig.resourceNames, ApiConfig.resourceNames, List.map_map, List.map_map] at htables
        exact htables
      refine ⟨_, rfl, clean_resourceIndexesFrom ?_ (by simp) (htables ▸ hcoherent.tables_nodup) ?_⟩
      · intro owner howner index hindex name hmem
        obtain ⟨origin, horigin, fields, rfl, hfields, -⟩ :=
          config.mem_setField hresource hfield hname howner
        rw [columnNames, ResourceSpec.fieldNames, hfields]
        exact (hcoherent.resources origin horigin).columns index hindex name hmem
      · intro owner howner index hindex other hother otherIndex hotherIndex heq
        obtain ⟨origin, horigin, fields, rfl, -, -⟩ := config.mem_setField hresource hfield hname howner
        obtain ⟨origin', horigin', fields', rfl, -, -⟩ := config.mem_setField hresource hfield hname hother
        exact hcoherent.indexNames origin horigin index hindex origin' horigin' otherIndex hotherIndex heq
  | bounds =>
      refine exists_clean_onFields_iff.mpr fun owner howner own hown => ?_
      obtain ⟨origin, -, hplace, hclean⟩ := hmem owner howner own hown
      rw [hplace]
      exact hclean
  | defaults =>
      refine exists_clean_defaults_iff.mpr fun owner howner own hown => ?_
      obtain ⟨origin, -, hplace, hclean⟩ := hmem owner howner own hown
      rw [hplace]
      exact hclean

/-- A check of single fields that finds no error in the others finds those of the changed one. -/
theorem filter_onFields_setField {check : Place → FieldSpec → List Finding}
    (hresource : config.resources[i]? = some resource) (hfield : resource.fields[j]? = some field)
    (hothers : ∀ owner ∈ config.resources, ∀ own ∈ owner.fields, Clean (check (place owner own) own)) :
    (onFields check (config.setField i j changed)).filter Finding.isError =
      (check (place resource changed) changed).filter Finding.isError := by
  obtain ⟨before, after, first, rest, hsplit, hfields, hset⟩ :=
    config.exists_setField_eq hresource hfield changed
  rw [hsplit, List.forall_mem_append, List.forall_mem_cons, hfields, List.forall_mem_append,
    List.forall_mem_cons] at hothers
  obtain ⟨hbefore, ⟨hfirst, -, hrest⟩, hafter⟩ := hothers
  have hnone : ∀ owners : List ResourceSpec,
      (∀ owner ∈ owners, ∀ own ∈ owner.fields, Clean (check (place owner own) own)) →
        (owners.flatMap fun owner => owner.fields.flatMap fun own =>
          check (place owner own) own).filter Finding.isError = [] := fun owners hclean =>
    clean_iff_filter.mp (clean_flatMap.mpr fun owner howner => clean_flatMap.mpr (hclean owner howner))
  have hnone' : ∀ fields : List FieldSpec, (∀ own ∈ fields, Clean (check (place resource own) own)) →
      (fields.flatMap fun own => check (place resource own) own).filter Finding.isError = [] :=
    fun fields hclean => clean_iff_filter.mp (clean_flatMap.mpr hclean)
  rw [onFields, hset]
  simp only [List.flatMap_append, List.flatMap_cons, List.filter_append, hnone before hbefore,
    hnone after hafter, List.nil_append, List.append_nil]
  change (first.flatMap fun own => check (place resource own) own).filter Finding.isError ++
    ((check (place resource changed) changed).filter Finding.isError ++
      (rest.flatMap fun own => check (place resource own) own).filter Finding.isError) = _
  rw [hnone' first hfirst, hnone' rest hrest, List.nil_append, List.append_nil]

end SetField

/-- If only one check finds errors, they are those of the report. -/
theorem exists_report_of_topic {config : ApiConfig} {topic : Topic} {found : List Finding}
    (hfound : topic.findings config = .ok found)
    (hothers : ∀ other ≠ topic, ∃ found, other.findings config = .ok found ∧ Clean found) :
    ∃ report, config.report = .ok report ∧
      report.errors = (found.filter Finding.isError).map Finding.issue := by
  have hall : ∀ other ∈ Topic.all, ∃ found, other.findings config = .ok found := by
    intro other _
    by_cases heq : other = topic
    · exact ⟨found, heq ▸ hfound⟩
    · exact (hothers other heq).imp fun _ hclean => hclean.1
  obtain ⟨groups, hgroups⟩ := Outcome.exists_mapM_eq_ok hall
  have hfindings : config.findings = .ok groups.flatten := Outcome.map_eq_ok.mpr ⟨groups, hgroups, rfl⟩
  have hmem : topic ∈ Topic.all := by cases topic <;> decide
  refine ⟨Check.report groups.flatten, Outcome.map_eq_ok.mpr ⟨_, hfindings, rfl⟩, ?_⟩
  have herrors : groups.flatten.filter Finding.isError = found.filter Finding.isError := by
    rw [← filter_topic_findingsOn (by decide) hfindings hmem hfound, List.filter_filter]
    apply List.filter_congr
    intro finding hfinding
    by_cases htopic : finding.topic = topic
    · simp [htopic]
    · obtain ⟨own, hown, hin⟩ := (mem_findings_iff hfindings).mp hfinding
      obtain ⟨clean, hclean, hnone⟩ := hothers finding.topic htopic
      obtain rfl := Except.ok.inj (hown.symm.trans hclean)
      simp [htopic, hnone finding hin]
  rw [← herrors, Report.errors, Check.report, List.filter_map]
  rfl

/-- The errors that a field makes in the place of another are those that the one check finds in it whose
question it does not answer. -/
theorem exists_report_setField {config : ApiConfig} {i j : Nat} {resource : ResourceSpec}
    {field changed : FieldSpec} (h : config.Accepted) (hresource : config.resources[i]? = some resource)
    (hfield : resource.fields[j]? = some field) (hname : changed.name = field.name) {topic : Topic}
    {check : Place → FieldSpec → List Finding}
    (hfindings : topic.findings (config.setField i j changed) =
      .ok (onFields check (config.setField i j changed)))
    (hothers : ∀ owner ∈ config.resources, ∀ own ∈ owner.fields, Clean (check (place owner own) own))
    (hasks : ∀ other ≠ topic, other.Asks config resource changed) :
    ∃ report, (config.setField i j changed).report = .ok report ∧
      report.errors = ((check (place resource changed) changed).filter Finding.isError).map Finding.issue := by
  obtain ⟨report, hreport, herrors⟩ := exists_report_of_topic hfindings fun other hne =>
    exists_clean_setField h hresource hfield hname (hasks other hne)
  rw [filter_onFields_setField hresource hfield hothers] at herrors
  exact ⟨report, hreport, herrors⟩

/-- A relation to a target that is not there is an error, and the only one. -/
theorem filter_relationOf {config : ApiConfig} {place : Place} {field : FieldSpec} {text : String}
    (hrelation : field.relation = some text)
    (hnone : ∀ target, RelationTarget.ofText? text = some target → ¬config.Offers target) :
    ∃ flaw, (relationOf config place field).filter Finding.isError = [.relation place text flaw] := by
  have htarget : field.target? = RelationTarget.ofText? text := by
    rw [FieldSpec.target?, hrelation, Option.bind_some]
  simp only [relationOf, hrelation, relationFlaw?, htarget]
  cases hread : RelationTarget.ofText? text with
  | none => exact ⟨.malformed, rfl⟩
  | some target =>
      have hmissing := hnone target hread
      cases hstorage : targetStorage config target with
      | ok storage =>
          obtain ⟨owner, howner, hcolumn⟩ := targetStorage_eq_ok hstorage
          have hname : owner.name = target.resource := by simpa using List.find?_some howner
          exact absurd ⟨owner, List.mem_of_find?_eq_some howner, hname, hcolumn⟩ hmissing
      | error flaw =>
          have hlevel := level_of_targetStorage hstorage
          refine ⟨flaw, ?_⟩
          simp [hstorage, Finding.isError, Finding.level, hlevel]

end Check

namespace ApiConfig

section SetField

variable {config : ApiConfig} {i j : Nat} {resource : ResourceSpec} {field : FieldSpec}

/-- Another relation of a field gives one error if it does not resolve, and none if it does. -/
theorem report_of_relation (h : config.Accepted) (hresource : config.resources[i]? = some resource)
    (hfield : resource.fields[j]? = some field) (text : String) :
    ∃ report, (config.setField i j { field with relation := some text }).report = .ok report ∧
      (config.RelationResolves text → report.errors = []) ∧
      (¬config.RelationResolves text → ∃ flaw,
        report.errors = [(Finding.relation (place resource field) text flaw).issue]) := by
  obtain ⟨changed, hchanged⟩ : ∃ changed, changed = { field with relation := some text } := ⟨_, rfl⟩
  have hname : changed.name = field.name := hchanged ▸ rfl
  have hrelation : changed.relation = some text := hchanged ▸ rfl
  have hplace : place resource changed = place resource field := hchanged ▸ rfl
  have hasks : ∀ topic ≠ Topic.relations, topic.Asks config resource changed := by
    intro topic hne
    have hown := asks_of_accepted h (List.mem_of_getElem? hresource) (List.mem_of_getElem? hfield) topic
    rw [hchanged]
    cases topic with
    | relations => exact absurd rfl hne
    | _ => exact hown
  have hoffers := fun target => @offers_setField _ _ _ _ _ _ hresource hfield hname target
  have hnodup : (config.setField i j changed).resourceNames.Nodup :=
    resourceNames_setField hresource hfield hname ▸ h.resourceNames_nodup
  have hothers : ∀ owner ∈ config.resources, ∀ own ∈ owner.fields,
      Clean (relationOf (config.setField i j changed) (place owner own) own) := by
    intro owner howner own hown
    refine clean_relationOf hnodup fun hsome => ?_
    obtain ⟨target, htarget, hoffered⟩ := h.coherent.relations owner howner own hown hsome
    exact ⟨target, htarget, (hoffers target).mpr hoffered⟩
  have hfindings : Topic.relations.findings (config.setField i j changed) =
    .ok (onFields (relationOf (config.setField i j changed)) (config.setField i j changed)) := rfl
  obtain ⟨report, hreport, herrors⟩ :=
    exists_report_setField h hresource hfield hname hfindings hothers hasks
  rw [hplace] at herrors
  rw [← hchanged]
  refine ⟨report, hreport, fun hresolves => ?_, fun hdangling => ?_⟩
  · obtain ⟨target, htarget, hoffered⟩ := h.relationResolves_iff.mp hresolves
    have hclean : Clean (relationOf (config.setField i j changed) (place resource field) changed) :=
      clean_relationOf hnodup fun _ => ⟨target, by rw [FieldSpec.target?, hrelation]; exact htarget,
        (hoffers target).mpr hoffered⟩
    rw [herrors, clean_iff_filter.mp hclean, List.map_nil]
  · obtain ⟨flaw, hflaw⟩ := @filter_relationOf (config.setField i j changed) (place resource field) changed
      text hrelation fun target htarget hoffered =>
        hdangling (h.relationResolves_iff.mpr ⟨target, htarget, (hoffers target).mp hoffered⟩)
    exact ⟨flaw, by rw [herrors, hflaw, List.map_singleton]⟩

/-- Choices that are missing are one error, whatever the default of the field is. -/
theorem report_of_choices (h : config.Accepted) (hresource : config.resources[i]? = some resource)
    (hfield : resource.fields[j]? = some field) (htype : field.type = .choice) {choices : Option (List String)}
    (hnone : choices.getD [] = []) (default : Option Scalar) :
    ∃ report, (config.setField i j { field with
        choices := choices, declaredDefault := default }).report = .ok report ∧
      report.errors = [(Finding.choicesMissing (place resource field)).issue] := by
  obtain ⟨changed, hchanged⟩ : ∃ changed, changed =
    { field with choices := choices, declaredDefault := default } := ⟨_, rfl⟩
  have hname : changed.name = field.name := hchanged ▸ rfl
  have htype' : changed.type = .choice := hchanged ▸ htype
  have hempty : changed.choiceList.isEmpty = true := by
    rw [hchanged, List.isEmpty_iff]
    exact hnone
  have hasks : ∀ topic ≠ Topic.choices, topic.Asks config resource changed := by
    intro topic hne
    have hown := asks_of_accepted h (List.mem_of_getElem? hresource) (List.mem_of_getElem? hfield) topic
    cases topic with
    | choices => exact absurd rfl hne
    | defaults =>
        -- Without choices no default is looked at.
        intro default _
        refine ⟨[], ?_, List.forall_mem_nil _⟩
        rw [defaultOf, if_pos htype', hempty]
        rfl
    | relations =>
        rw [hchanged]
        exact hown
    | bounds =>
        rw [hchanged]
        exact hown
    | _ => trivial
  have hothers : ∀ owner ∈ config.resources, ∀ own ∈ owner.fields, Clean (choicesOf (place owner own) own) :=
    fun owner howner own hown => asks_of_accepted h howner hown .choices
  have hmissing : choicesOf (place resource changed) changed = [.choicesMissing (place resource field)] := by
    rw [choicesOf, if_pos htype', hempty, if_pos rfl, hchanged]
    rfl
  have hfindings : Topic.choices.findings (config.setField i j changed) =
    .ok (onFields choicesOf (config.setField i j changed)) := rfl
  obtain ⟨report, hreport, herrors⟩ :=
    exists_report_setField h hresource hfield hname hfindings hothers hasks
  rw [hmissing] at herrors
  rw [← hchanged]
  exact ⟨report, hreport, herrors⟩

/-- **One fault gives one error.** In an accepted configuration, another relation of a field gives exactly one
error if it does not resolve, and a field of choices without choices gives exactly one. -/
theorem one_fault_one_error (h : config.Accepted) (hresource : config.resources[i]? = some resource)
    (hfield : resource.fields[j]? = some field) :
    (∀ text, ∃ report, (config.setField i j { field with relation := some text }).report = .ok report ∧
      (config.RelationResolves text → report.errors = []) ∧
      (¬config.RelationResolves text → ∃ flaw,
        report.errors = [(Finding.relation (place resource field) text flaw).issue])) ∧
    (field.type = .choice → ∀ choices : Option (List String), choices.getD [] = [] → ∀ default,
      ∃ report, (config.setField i j { field with
          choices := choices, declaredDefault := default }).report = .ok report ∧
        report.errors = [(Finding.choicesMissing (place resource field)).issue]) :=
  ⟨report_of_relation h hresource hfield, fun htype _ hnone => report_of_choices h hresource hfield htype hnone⟩

end SetField

end ApiConfig

/-- A post by nobody and a status without choices: one error each. -/
theorem Blog.single_faults :
    (config.Accepted ∧ config.resources[1]? = some post ∧ post.fields[1]? = some authorField ∧
      ∃ report flaw, (config.setField 1 1 { authorField with relation := some "Nobody.id" }).report = .ok report ∧
        report.errors = [(Finding.relation (place post authorField) "Nobody.id" flaw).issue]) ∧
    (post.fields[2]? = some statusField ∧
      ∃ report, (config.setField 1 2 { statusField with choices := none }).report = .ok report ∧
        report.errors = [(Finding.choicesMissing (place post statusField)).issue]) := by
  have hpost : config.resources[1]? = some post := rfl
  have hauthor : post.fields[1]? = some authorField := rfl
  have hstatus : post.fields[2]? = some statusField := rfl
  obtain ⟨report, hreport, -, hdangling⟩ :=
    (ApiConfig.one_fault_one_error accepted hpost hauthor).1 "Nobody.id"
  obtain ⟨flaw, herrors⟩ := hdangling (by decide)
  obtain ⟨report', hreport', herrors'⟩ := (ApiConfig.one_fault_one_error accepted hpost hstatus).2 rfl none rfl
    statusField.declaredDefault
  exact ⟨⟨accepted, hpost, hauthor, report, flaw, hreport, herrors⟩, hstatus, report', hreport', herrors'⟩

end ApiScaffold
