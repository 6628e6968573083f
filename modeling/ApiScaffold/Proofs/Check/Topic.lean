import Mathlib
import ApiScaffold.Proofs.Check.Fields

/-! Which check a finding comes from. Every cause is found by one check, so the report on a configuration
shows an issue exactly if the check of its topic has found a cause of its code and context. -/

namespace ApiScaffold

namespace Check

/-- The topic of the check that finds a cause. -/
def Finding.topic : Finding → Topic
  | repeatedResource _ | badResourceName _ | repeatedTable .. | reservedTable .. => .resourceNames
  | repeatedField _ | badFieldName _ | managedField _ | reservedField _ | shadowedFilter _ => .fieldNames
  | choicesMissing _ | choicesRepeated .. | choicesIgnored .. => .choices
  | .relation .. => .relations
  | circularRelation _ => .circularRelations
  | unknownIndexField _ | repeatedIndex .. | indexNameTaken .. => .indexes
  | boundsNotFinite .. | boundsIgnored .. | boundsReversed .. | badLengthBound .. => .bounds
  | defaultNotChosen .. | defaultUnfit .. => .defaults

/-! ### Checks of fields -/

section Fields

variable {config : ApiConfig} {finding : Finding}

theorem mem_onFields {check : Place → FieldSpec → List Finding} :
    finding ∈ onFields check config ↔
      ∃ resource ∈ config.resources, ∃ field ∈ resource.fields,
        finding ∈ check (place resource field) field := by
  simp only [onFields, List.mem_flatMap]

theorem mem_onFieldsWithFaults {check : Place → FieldSpec → Except Fault (List Finding)}
    {findings : List Finding} (h : onFieldsWithFaults check config = .ok findings) :
    finding ∈ findings ↔
      ∃ resource ∈ config.resources, ∃ field ∈ resource.fields,
        ∃ found, check (place resource field) field = .ok found ∧ finding ∈ found := by
  obtain ⟨groups, hgroups, hflatten⟩ := Outcome.bind_eq_ok.mp h
  obtain rfl : groups.flatten.flatten = findings := Except.ok.inj hflatten
  simp only [List.mem_flatten]
  constructor
  · rintro ⟨ofField, ⟨ofResource, hofResource, hofField⟩, hfinding⟩
    obtain ⟨resource, hresource, hfields⟩ := Outcome.exists_of_mem_results hgroups hofResource
    obtain ⟨field, hfield, hfound⟩ := Outcome.exists_of_mem_results hfields hofField
    exact ⟨resource, hresource, field, hfield, ofField, hfound, hfinding⟩
  · rintro ⟨resource, hresource, field, hfield, found, hfound, hfinding⟩
    obtain ⟨ofResource, hofResource, hfields⟩ := Outcome.exists_of_mem_mapM hgroups hresource
    obtain ⟨ofField, hofField, hresult⟩ := Outcome.exists_of_mem_mapM hfields hfield
    rw [hfound] at hresult
    exact ⟨ofField, ⟨ofResource, hofResource, hofField⟩, Except.ok.inj hresult ▸ hfinding⟩

end Fields

/-! ### What a check finds is on its topic -/

section OnTopic

variable {finding : Finding}

theorem topic_of_mem_resourceNamesFrom {seen : List String} {tables : List (String × String)}
    {names : List String} (h : finding ∈ resourceNamesFrom seen tables names) :
    finding.topic = .resourceNames := by
  have hreserved : ∀ name table : String,
      finding ∈ (if isReserved table then [Finding.reservedTable name table] else []) →
        finding.topic = .resourceNames := by
    intro name table hmem
    split at hmem
    · rw [List.mem_singleton.mp hmem, Finding.topic]
    · cases hmem
  induction names generalizing seen tables with
  | nil => cases h
  | cons name rest ih =>
      rw [resourceNamesFrom] at h
      split at h
      · rcases List.mem_cons.mp h with rfl | hrest
        · rfl
        · exact ih hrest
      · split at h
        · rcases List.mem_cons.mp h with rfl | hrest
          · rfl
          · exact ih hrest
        · dsimp only at h
          split at h
          · rcases List.mem_cons.mp h with rfl | hmem
            · rfl
            · exact (List.mem_append.mp hmem).elim (hreserved _ _) ih
          · exact (List.mem_append.mp h).elim (hreserved _ _) ih

theorem topic_of_mem_collisions {place : Place} {field : FieldSpec} (h : finding ∈ collisions place field) :
    finding.topic = .fieldNames := by
  have hone : ∀ (condition : Bool) (cause : Finding), cause.topic = .fieldNames →
      finding ∈ (if condition then [cause] else []) → finding.topic = .fieldNames := by
    intro condition cause hcause hmem
    split at hmem
    · exact List.mem_singleton.mp hmem ▸ hcause
    · cases hmem
  rw [collisions, List.mem_append, List.mem_append] at h
  rcases h with (hmanaged | hreserved) | hshadowed
  · exact hone _ _ rfl hmanaged
  · exact hone _ _ rfl hreserved
  · exact hone _ _ rfl hshadowed

theorem topic_of_mem_fieldNamesFrom {resource : String} {seen : List String} {fields : List FieldSpec}
    (h : finding ∈ fieldNamesFrom resource seen fields) : finding.topic = .fieldNames := by
  induction fields generalizing seen with
  | nil => cases h
  | cons field rest ih =>
      rw [fieldNamesFrom] at h
      split at h
      · rcases List.mem_cons.mp h with rfl | hrest
        · rfl
        · exact ih hrest
      · split at h
        · rcases List.mem_cons.mp h with rfl | hrest
          · rfl
          · exact ih hrest
        · exact (List.mem_append.mp h).elim topic_of_mem_collisions ih

theorem topic_of_mem_choicesOf {place : Place} {field : FieldSpec} (h : finding ∈ choicesOf place field) :
    finding.topic = .choices := by
  unfold choicesOf at h
  split at h
  · split at h
    · rw [List.mem_singleton.mp h, Finding.topic]
    · split at h
      · cases h
      · rw [List.mem_singleton.mp h, Finding.topic]
  · split at h
    · cases h
    · rw [List.mem_singleton.mp h, Finding.topic]

theorem topic_of_mem_relationOf {config : ApiConfig} {place : Place} {field : FieldSpec}
    (h : finding ∈ relationOf config place field) : finding.topic = .relations := by
  unfold relationOf at h
  split at h
  · cases h
  · obtain ⟨flaw, -, rfl⟩ := List.mem_map.mp h
    rfl

theorem topic_of_mem_unknownIndexFields {resource : ResourceSpec} {index : IndexSpec}
    (h : finding ∈ unknownIndexFields resource index) : finding.topic = .indexes := by
  obtain ⟨name, -, rfl⟩ := List.mem_map.mp h
  rfl

theorem topic_of_mem_indexesFrom {resource : ResourceSpec} {seen : List IndexSpec}
    {claims : List IndexClaim} {indexes : List IndexSpec}
    (h : finding ∈ (indexesFrom resource seen claims indexes).1) : finding.topic = .indexes := by
  induction indexes generalizing seen claims with
  | nil => cases h
  | cons index rest ih =>
      rw [indexesFrom] at h
      dsimp only at h
      split at h
      · rcases List.mem_append.mp h with hunknown | hmem
        · exact topic_of_mem_unknownIndexFields hunknown
        · rcases List.mem_cons.mp hmem with rfl | hrest
          · rfl
          · exact ih hrest
      · split at h
        · rcases List.mem_append.mp h with hunknown | hmem
          · exact topic_of_mem_unknownIndexFields hunknown
          · rcases List.mem_cons.mp hmem with rfl | hrest
            · rfl
            · exact ih hrest
        · exact (List.mem_append.mp h).elim topic_of_mem_unknownIndexFields ih

theorem topic_of_mem_resourceIndexesFrom {claims : List IndexClaim} {resources : List ResourceSpec}
    (h : finding ∈ resourceIndexesFrom claims resources) : finding.topic = .indexes := by
  induction resources generalizing claims with
  | nil => cases h
  | cons resource rest ih =>
      rw [resourceIndexesFrom] at h
      exact (List.mem_append.mp h).elim topic_of_mem_indexesFrom ih

theorem topic_of_mem_reversed {place : Place} {field : FieldSpec} (h : finding ∈ reversed place field) :
    finding.topic = .bounds := by
  unfold reversed at h
  split at h
  · split at h
    · rw [List.mem_singleton.mp h, Finding.topic]
    · cases h
  · cases h

theorem topic_of_mem_boundsOf {place : Place} {field : FieldSpec} {found : List Finding}
    (hfound : boundsOf place field = .ok found) (h : finding ∈ found) : finding.topic = .bounds := by
  cases boundsFound_of_boundsOf hfound with
  | nothing hnone => cases h
  | infinite hne => rw [List.mem_singleton.mp h, Finding.topic]
  | ignored hne hfinite hlength hnumeric => rw [List.mem_singleton.mp h, Finding.topic]
  | judged hfinite hused =>
      rcases List.mem_append.mp h with hreversed | hlengths
      · exact topic_of_mem_reversed hreversed
      · unfold badLengths at hlengths
        split at hlengths
        · obtain ⟨bound, -, rfl⟩ := List.mem_map.mp hlengths
          rfl
        · cases hlengths

theorem eq_of_mem_showing {default : Scalar} {cause : Finding} {found : List Finding}
    (hfound : showing default cause = .ok found) (h : finding ∈ found) : finding = cause := by
  unfold showing at hfound
  split at hfound
  · obtain rfl := Except.ok.inj hfound
    exact List.mem_singleton.mp h
  · cases hfound

theorem topic_of_mem_defaultOf {place : Place} {field : FieldSpec} {default : Scalar}
    {found : List Finding} (hfound : defaultOf place field default = .ok found) (h : finding ∈ found) :
    finding.topic = .defaults := by
  unfold defaultOf at hfound
  split at hfound
  · split at hfound
    · obtain rfl := Except.ok.inj hfound
      cases h
    · rw [eq_of_mem_showing hfound h, Finding.topic]
  · obtain ⟨suitable, -, hfound⟩ := Outcome.bind_eq_ok.mp hfound
    split at hfound
    · obtain rfl := Except.ok.inj hfound
      cases h
    · rw [eq_of_mem_showing hfound h, Finding.topic]

/-- **Every check keeps to its topic.** -/
theorem Topic.topic_of_mem_findings {config : ApiConfig} {topic : Topic} {found : List Finding}
    (hfound : topic.findings config = .ok found) (h : finding ∈ found) : finding.topic = topic := by
  cases topic with
  | resourceNames =>
      obtain rfl := Except.ok.inj hfound
      exact topic_of_mem_resourceNamesFrom h
  | fieldNames =>
      obtain rfl := Except.ok.inj hfound
      obtain ⟨resource, -, hmem⟩ := List.mem_flatMap.mp h
      exact topic_of_mem_fieldNamesFrom hmem
  | choices =>
      obtain rfl := Except.ok.inj hfound
      obtain ⟨resource, -, field, -, hmem⟩ := mem_onFields.mp h
      exact topic_of_mem_choicesOf hmem
  | relations =>
      obtain rfl := Except.ok.inj hfound
      obtain ⟨resource, -, field, -, hmem⟩ := mem_onFields.mp h
      exact topic_of_mem_relationOf hmem
  | circularRelations =>
      obtain rfl := Except.ok.inj hfound
      obtain ⟨cycle, -, rfl⟩ := List.mem_map.mp h
      rfl
  | indexes =>
      obtain rfl := Except.ok.inj hfound
      exact topic_of_mem_resourceIndexesFrom h
  | bounds =>
      obtain ⟨resource, -, field, -, ofField, hofField, hmem⟩ := (mem_onFieldsWithFaults hfound).mp h
      exact topic_of_mem_boundsOf hofField hmem
  | defaults =>
      rw [Topic.findings, Check.defaults] at hfound
      obtain ⟨resource, -, field, -, ofField, hofField, hmem⟩ := (mem_onFieldsWithFaults hfound).mp h
      split at hofField
      · exact topic_of_mem_defaultOf hofField hmem
      · obtain rfl := Except.ok.inj hofField
        cases hmem

end OnTopic

/-! ### Reports -/

theorem placeContext_inj {place other : Place} (h : Finding.placeContext place = Finding.placeContext other) :
    place = other := by
  cases place
  cases other
  simpa [Finding.placeContext] using h

end Check

/-- A report shows an issue of a code and a context. -/
def Report.Shows (report : Report) (code : String) (context : List (String × Value)) : Prop :=
  ∃ issue ∈ report.issues, issue.code = code ∧ issue.context = context

namespace Check

theorem report_shows_iff {findings : List Finding} {code : String} {context : List (String × Value)} :
    (report findings).Shows code context ↔
      ∃ finding ∈ findings, finding.code = code ∧ finding.context = context := by
  simp only [Report.Shows, report, List.mem_map]
  constructor
  · rintro ⟨-, ⟨finding, hfinding, rfl⟩, hcode, hcontext⟩
    exact ⟨finding, hfinding, hcode, hcontext⟩
  · rintro ⟨finding, hfinding, hcode, hcontext⟩
    exact ⟨finding.issue, ⟨finding, hfinding, rfl⟩, hcode, hcontext⟩

theorem mem_findings_iff {config : ApiConfig} {findings : List Finding}
    (h : config.findings = .ok findings) {finding : Finding} :
    finding ∈ findings ↔ ∃ found, finding.topic.findings config = .ok found ∧ finding ∈ found := by
  obtain ⟨groups, hgroups, rfl⟩ := Outcome.map_eq_ok.mp h
  rw [List.mem_flatten]
  constructor
  · rintro ⟨found, hfound, hmem⟩
    obtain ⟨topic, -, htopic⟩ := Outcome.exists_of_mem_results hgroups hfound
    rw [Topic.topic_of_mem_findings htopic hmem]
    exact ⟨found, htopic, hmem⟩
  · rintro ⟨found, hfound, hmem⟩
    have hall : finding.topic ∈ Topic.all := by
      cases finding.topic <;> decide
    obtain ⟨group, hgroup, hresult⟩ := Outcome.exists_of_mem_mapM hgroups hall
    rw [hfound] at hresult
    exact ⟨group, hgroup, Except.ok.inj hresult ▸ hmem⟩

theorem findingsOn_cons_eq_ok {config : ApiConfig} {first : Topic} {rest : List Topic}
    {findings : List Finding} :
    findingsOn (first :: rest) config = .ok findings ↔
      ∃ found others, first.findings config = .ok found ∧ findingsOn rest config = .ok others ∧
        findings = found ++ others := by
  simp only [findingsOn, Outcome.map_eq_ok, Outcome.mapM_eq_ok, List.forall₂_cons_left_iff]
  constructor
  · rintro ⟨-, ⟨found, groups, hfound, hgroups, rfl⟩, rfl⟩
    exact ⟨found, _, hfound, ⟨groups, hgroups, rfl⟩, List.flatten_cons⟩
  · rintro ⟨found, -, hfound, ⟨groups, hgroups, rfl⟩, rfl⟩
    exact ⟨found :: groups, ⟨found, groups, hfound, hgroups, rfl⟩, List.flatten_cons⟩

theorem topic_mem_of_mem_findingsOn {config : ApiConfig} {topics : List Topic} {findings : List Finding}
    (h : findingsOn topics config = .ok findings) {finding : Finding} (hmem : finding ∈ findings) :
    finding.topic ∈ topics := by
  obtain ⟨groups, hgroups, rfl⟩ := Outcome.map_eq_ok.mp h
  obtain ⟨found, hfound, hin⟩ := List.mem_flatten.mp hmem
  obtain ⟨topic, htopic, hresult⟩ := Outcome.exists_of_mem_results hgroups hfound
  rw [Topic.topic_of_mem_findings hresult hin]
  exact htopic

/-- The findings on a topic are what its check has found, in order. -/
theorem filter_topic_findingsOn {config : ApiConfig} {topics : List Topic} (hnodup : topics.Nodup)
    {findings : List Finding} (h : findingsOn topics config = .ok findings) {topic : Topic}
    (htopic : topic ∈ topics) {found : List Finding} (hfound : topic.findings config = .ok found) :
    (findings.filter fun finding => finding.topic = topic) = found := by
  induction topics generalizing findings with
  | nil => exact absurd htopic List.not_mem_nil
  | cons first rest ih =>
      obtain ⟨hfirst, hnodupRest⟩ := List.nodup_cons.mp hnodup
      obtain ⟨found', others, hfound', hothers, rfl⟩ := findingsOn_cons_eq_ok.mp h
      have hown : ∀ finding ∈ found', finding.topic = first := fun finding hmem =>
        Topic.topic_of_mem_findings hfound' hmem
      rw [List.filter_append]
      rcases List.mem_cons.mp htopic with rfl | hrest
      · have hnone : (others.filter fun finding => finding.topic = topic) = [] := by
          rw [List.filter_eq_nil_iff]
          intro finding hmem heq
          have hlater := topic_mem_of_mem_findingsOn hothers hmem
          rw [of_decide_eq_true heq] at hlater
          exact hfirst hlater
        obtain rfl := Except.ok.inj (hfound.symm.trans hfound')
        rw [hnone, List.append_nil, List.filter_eq_self]
        exact fun finding hmem => decide_eq_true (hown finding hmem)
      · have hnone : (found'.filter fun finding => finding.topic = topic) = [] := by
          rw [List.filter_eq_nil_iff]
          intro finding hmem heq
          rw [hown finding hmem] at heq
          exact hfirst (of_decide_eq_true heq ▸ hrest)
        rw [hnone, List.nil_append, ih hnodupRest hothers hrest]

end Check

namespace ApiConfig

/-- The report on a configuration shows what the check of the right topic has found. -/
theorem report_shows_iff {config : ApiConfig} {report : Report} (h : config.report = .ok report)
    {code : String} {context : List (String × Value)} :
    report.Shows code context ↔
      ∃ finding : Check.Finding, (finding.code = code ∧ finding.context = context) ∧
        ∃ found, finding.topic.findings config = .ok found ∧ finding ∈ found := by
  obtain ⟨findings, hfindings, rfl⟩ := Outcome.map_eq_ok.mp h
  rw [Check.report_shows_iff]
  constructor
  · rintro ⟨finding, hfinding, heq⟩
    exact ⟨finding, heq, (Check.mem_findings_iff hfindings).mp hfinding⟩
  · rintro ⟨finding, heq, hfound⟩
    exact ⟨finding, (Check.mem_findings_iff hfindings).mpr hfound, heq⟩

/-- A finding that no other one looks like is shown exactly if its check has found it. -/
theorem report_shows_of_unique {config : ApiConfig} {report : Report} (h : config.report = .ok report)
    (finding : Check.Finding) {found : List Check.Finding}
    (hfound : finding.topic.findings config = .ok found)
    (hunique : ∀ other : Check.Finding, other.code = finding.code → other.context = finding.context →
      other = finding) :
    report.Shows finding.code finding.context ↔ finding ∈ found := by
  rw [report_shows_iff h]
  constructor
  · rintro ⟨other, ⟨hcode, hcontext⟩, found', hfound', hmem⟩
    obtain rfl := hunique other hcode hcontext
    obtain rfl := Except.ok.inj (hfound.symm.trans hfound')
    exact hmem
  · exact fun hmem => ⟨finding, ⟨rfl, rfl⟩, found, hfound, hmem⟩

end ApiConfig

end ApiScaffold
