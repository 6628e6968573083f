import Mathlib
import ApiScaffold.Check.Basic
import ApiScaffold.Proofs.Outcome

/-! Accepted configurations: the checks can be finished and find no error. What each check then has
found is free of errors too. -/

namespace ApiScaffold

/-- The report on a configuration can be made and has no errors. -/
def ApiConfig.Accepted (config : ApiConfig) : Prop :=
  ∃ report, config.report = .ok report ∧ report.hasErrors = false

instance (config : ApiConfig) : Decidable config.Accepted :=
  match h : config.report with
  | .error _ => isFalse fun ⟨_, hreport, _⟩ => nomatch h.symm.trans hreport
  | .ok report =>
    if herrors : report.hasErrors = false then isTrue ⟨report, h, herrors⟩
    else isFalse fun ⟨_, hreport, hnone⟩ => herrors (Except.ok.inj (h.symm.trans hreport) ▸ hnone)

namespace Check

/-- No finding makes the configuration unusable. -/
def Clean (findings : List Finding) : Prop := ∀ finding ∈ findings, finding.isError = false

theorem clean_iff_filter {findings : List Finding} : Clean findings ↔ findings.filter Finding.isError = [] := by
  rw [List.filter_eq_nil_iff, Clean]
  simp only [Bool.not_eq_true]

theorem clean_append {first second : List Finding} :
    Clean (first ++ second) ↔ Clean first ∧ Clean second := List.forall_mem_append

theorem clean_cons {finding : Finding} {rest : List Finding} :
    Clean (finding :: rest) ↔ finding.isError = false ∧ Clean rest := List.forall_mem_cons

theorem clean_flatMap {α : Type} {items : List α} {findings : α → List Finding} :
    Clean (items.flatMap findings) ↔ ∀ item ∈ items, Clean (findings item) := by
  simp only [Clean, List.mem_flatMap]
  exact ⟨fun h item hitem finding hfinding => h finding ⟨item, hitem, hfinding⟩,
    fun h finding ⟨item, hitem, hfinding⟩ => h item hitem finding hfinding⟩

theorem not_clean_of_mem {findings : List Finding} {finding : Finding} (hmem : finding ∈ findings)
    (herror : finding.isError = true) : ¬Clean findings := by
  intro h
  rw [h finding hmem] at herror
  exact Bool.false_ne_true herror

theorem not_clean_cons {finding : Finding} {rest : List Finding} (herror : finding.isError = true) :
    ¬Clean (finding :: rest) := not_clean_of_mem List.mem_cons_self herror

theorem report_hasErrors_eq_false {findings : List Finding} :
    (report findings).hasErrors = false ↔ Clean findings := by
  rw [report, Report.hasErrors, List.any_map, List.any_eq_false, Clean]
  simp only [Function.comp_apply, Bool.not_eq_true]
  rfl

end Check

open Check

namespace ApiConfig

theorem accepted_iff {config : ApiConfig} :
    config.Accepted ↔ ∃ findings, config.findings = .ok findings ∧ Clean findings := by
  simp only [Accepted, ApiConfig.report, Outcome.map_eq_ok]
  constructor
  · rintro ⟨-, ⟨findings, hfindings, rfl⟩, hnone⟩
    exact ⟨findings, hfindings, report_hasErrors_eq_false.mp hnone⟩
  · rintro ⟨findings, hfindings, hclean⟩
    exact ⟨_, ⟨findings, hfindings, rfl⟩, report_hasErrors_eq_false.mpr hclean⟩

/-- A configuration is accepted exactly if every check can be finished and finds no error. -/
theorem accepted_iff_topics {config : ApiConfig} :
    config.Accepted ↔
      ∀ topic, ∃ findings, Topic.findings config topic = .ok findings ∧ Clean findings := by
  have hall : ∀ topic, topic ∈ Topic.all := by
    intro topic
    cases topic <;> decide
  rw [accepted_iff, ApiConfig.findings, findingsOn]
  simp only [Outcome.map_eq_ok]
  constructor
  · rintro ⟨-, ⟨groups, hgroups, rfl⟩, hclean⟩ topic
    obtain ⟨findings, hmem, hfindings⟩ := Outcome.exists_of_mem_mapM hgroups (hall topic)
    exact ⟨findings, hfindings,
      fun finding hfinding => hclean finding (List.mem_flatten_of_mem hmem hfinding)⟩
  · intro h
    have heach : ∀ topic ∈ Topic.all, ∃ findings, Topic.findings config topic = .ok findings :=
      fun topic _ => (h topic).imp fun _ hfindings => hfindings.1
    obtain ⟨groups, hgroups⟩ := Outcome.exists_mapM_eq_ok heach
    refine ⟨_, ⟨groups, hgroups, rfl⟩, fun finding hfinding => ?_⟩
    obtain ⟨findings, hmem, hin⟩ := List.mem_flatten.mp hfinding
    obtain ⟨topic, -, htopic⟩ := Outcome.exists_of_mem_results hgroups hmem
    obtain ⟨found, hfound, hclean⟩ := h topic
    rw [htopic] at hfound
    exact hclean finding (Except.ok.inj hfound ▸ hin)

section Consequences

variable {config : ApiConfig}

/-- A check that can be finished has found no error. -/
theorem Accepted.clean (h : config.Accepted) (topic : Topic) {findings : List Finding}
    (hfindings : topic.findings config = .ok findings) : Clean findings := by
  obtain ⟨found, hfound, hclean⟩ := accepted_iff_topics.mp h topic
  rw [hfindings] at hfound
  exact Except.ok.inj hfound ▸ hclean

theorem Accepted.resourceNames (h : config.Accepted) : Clean (Check.resourceNames config) :=
  h.clean .resourceNames rfl

theorem Accepted.fieldNames (h : config.Accepted) : Clean (Check.fieldNames config) :=
  h.clean .fieldNames rfl

theorem Accepted.choices (h : config.Accepted) : Clean (Check.choices config) :=
  h.clean .choices rfl

theorem Accepted.relations (h : config.Accepted) : Clean (Check.relations config) :=
  h.clean .relations rfl

theorem Accepted.indexes (h : config.Accepted) : Clean (Check.indexes config) :=
  h.clean .indexes rfl

theorem Accepted.bounds (h : config.Accepted) :
    ∃ findings, Check.bounds config = .ok findings ∧ Clean findings :=
  accepted_iff_topics.mp h .bounds

theorem Accepted.defaults (h : config.Accepted) :
    ∃ findings, Check.defaults config = .ok findings ∧ Clean findings :=
  accepted_iff_topics.mp h .defaults

end Consequences

end ApiConfig

/-! ### A blog -/

namespace Blog

def authorField : FieldSpec :=
  { name := "author", type := .uuid, required := true, relation := some "Author.id" }

def statusField : FieldSpec :=
  { name := "status", type := .choice, choices := some ["draft", "live"],
    declaredDefault := some (.text "draft") }

def author : ResourceSpec :=
  { name := "Author", fields := [{ name := "email", type := .email, required := true, unique := true }] }

def post : ResourceSpec :=
  { name := "Post"
    fields := [{ name := "title", type := .string, required := true, lower := some (.int 1) },
      authorField, statusField]
    indexes := [⟨["author", "createdAt"], false⟩] }

/-- Posts refer to their author and are looked up by author and time. -/
def config : ApiConfig := { name := "Blog", resources := [author, post] }

theorem accepted : config.Accepted := by decide +kernel

end Blog

end ApiScaffold
