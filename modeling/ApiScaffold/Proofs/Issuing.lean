import Mathlib
import ApiScaffold.Migration.Script
import ApiScaffold.Proofs.Migration.Token

/-! Steps that take tokens, run from a sequence. A step that comes first decides from which sequence
the next one runs, and a script takes the next token exactly if it could be made. -/

namespace ApiScaffold

namespace Sequence

variable {ε α β : Type}

/-- Runs a step from a sequence; gives its outcome and the sequence after it. -/
def run (step : ExceptT ε (StateM Sequence) α) (sequence : Sequence) : Except ε α × Sequence :=
  (ExceptT.run step).run sequence

theorem run_pure (a : α) (sequence : Sequence) :
    run (pure a : ExceptT ε (StateM Sequence) α) sequence = (.ok a, sequence) := rfl

theorem run_throw (fault : ε) (sequence : Sequence) :
    run (throw fault : ExceptT ε (StateM Sequence) α) sequence = (.error fault, sequence) := rfl

theorem run_get (sequence : Sequence) :
    run (get : ExceptT ε (StateM Sequence) Sequence) sequence = (.ok sequence, sequence) := rfl

theorem run_bind (step : ExceptT ε (StateM Sequence) α) (next : α → ExceptT ε (StateM Sequence) β)
    (sequence : Sequence) :
    run (step >>= next) sequence =
      match run step sequence with
      | (.ok a, after) => run (next a) after
      | (.error fault, after) => (.error fault, after) := by
  unfold run
  rw [ExceptT.run_bind, StateT.run_bind]
  change (match (ExceptT.run step).run sequence with | (outcome, after) => _) = _
  cases (ExceptT.run step).run sequence with
  | mk outcome after => cases outcome <;> rfl

/-- A run that is known to succeed has a result. -/
theorem exists_run_eq_ok {step : ExceptT ε (StateM Sequence) α} {sequence : Sequence}
    (h : (run step sequence).1.isOk = true) : ∃ a after, run step sequence = (.ok a, after) := by
  obtain ⟨a, ha⟩ := Outcome.exists_eq_ok h
  exact ⟨a, (run step sequence).2, Prod.ext ha rfl⟩

section Outcomes

variable {step : ExceptT ε (StateM Sequence) α} {next : α → ExceptT ε (StateM Sequence) β}
  {before after : Sequence}

theorem run_bind_eq_ok {b : β} :
    run (step >>= next) before = (.ok b, after) ↔
      ∃ a between, run step before = (.ok a, between) ∧ run (next a) between = (.ok b, after) := by
  rw [run_bind]
  cases run step before with
  | mk outcome between => cases outcome <;> simp

theorem run_bind_eq_error {fault : ε} :
    run (step >>= next) before = (.error fault, after) ↔
      run step before = (.error fault, after) ∨ ∃ a between,
        run step before = (.ok a, between) ∧ run (next a) between = (.error fault, after) := by
  rw [run_bind]
  cases run step before with
  | mk outcome between => cases outcome <;> simp

/-- A fault of a step taken for all items is the fault of the step for one of them. -/
theorem run_mapM_eq_error {step : α → ExceptT ε (StateM Sequence) β} {items : List α} {fault : ε}
    (h : run (items.mapM step) before = (.error fault, after)) :
    ∃ item ∈ items, ∃ start stop, run (step item) start = (.error fault, stop) := by
  induction items generalizing before with
  | nil =>
      rw [List.mapM_nil, run_pure] at h
      cases h
  | cons item rest ih =>
      rw [List.mapM_cons] at h
      rcases run_bind_eq_error.mp h with hfirst | ⟨result, between, -, hrest⟩
      · exact ⟨item, List.mem_cons_self, before, after, hfirst⟩
      · rcases run_bind_eq_error.mp hrest with hothers | ⟨others, between', -, hpure⟩
        · obtain ⟨other, hmem, hother⟩ := ih hothers
          exact ⟨other, List.mem_cons_of_mem _ hmem, hother⟩
        · rw [run_pure] at hpure
          cases hpure

end Outcomes

theorem run_ofExcept (outcome : Except GenerationFault α) (sequence : Sequence) :
    run (Issuing.ofExcept outcome) sequence = (outcome, sequence) := by
  cases outcome <;> rfl

theorem run_issueToken (sequence : Sequence) :
    run issueToken sequence =
      match sequence.token with
      | .ok token => (.ok token, sequence.advance token)
      | .error fault => (.error fault, sequence) := by
  unfold issueToken
  rw [run_bind, run_get]
  dsimp only
  cases sequence.token with
  | error fault => rfl
  | ok token => rfl

theorem run_map (f : α → β) (step : ExceptT ε (StateM Sequence) α) (sequence : Sequence) :
    run (f <$> step) sequence = ((run step sequence).1.map f, (run step sequence).2) := by
  rw [map_eq_pure_bind, run_bind]
  cases run step sequence with
  | mk outcome after => cases outcome <;> rfl

/-! ### Tokens that a step takes -/

/-- Whatever comes of it, a step takes tokens in a row. -/
def TakesInARow (step : ExceptT ε (StateM Sequence) α) : Prop :=
  ∀ before, ∃ tokens, Taken before tokens (run step before).2

namespace TakesInARow

theorem of_pure (a : α) : TakesInARow (pure a : ExceptT ε (StateM Sequence) α) :=
  fun _ => ⟨[], .nil⟩

theorem of_throw (fault : ε) : TakesInARow (throw fault : ExceptT ε (StateM Sequence) α) :=
  fun _ => ⟨[], .nil⟩

theorem ofExcept (outcome : Except GenerationFault α) :
    TakesInARow (Issuing.ofExcept outcome) := by
  intro before
  rw [run_ofExcept]
  exact ⟨[], .nil⟩

theorem issueToken : TakesInARow issueToken := by
  intro before
  rw [run_issueToken]
  cases htoken : before.token with
  | error fault => exact ⟨[], .nil⟩
  | ok token => exact ⟨[token], .cons htoken .nil⟩

variable {step : ExceptT ε (StateM Sequence) α} {next : α → ExceptT ε (StateM Sequence) β}

/-- The tokens of a step that comes first are followed by those of the next one, if there is one. -/
theorem bind (h : TakesInARow step) (hnext : ∀ a, TakesInARow (next a)) :
    TakesInARow (step >>= next) := by
  intro before
  obtain ⟨tokens, htaken⟩ := h before
  rw [run_bind]
  cases hrun : run step before with
  | mk outcome between =>
      rw [hrun] at htaken
      cases outcome with
      | error fault => exact ⟨tokens, htaken⟩
      | ok a =>
          obtain ⟨others, hothers⟩ := hnext a between
          exact ⟨tokens ++ others, htaken.append hothers⟩

theorem map (f : α → β) (h : TakesInARow step) : TakesInARow (f <$> step) := by
  intro before
  rw [run_map]
  exact h before

theorem mapM {items : List α} {step : α → ExceptT ε (StateM Sequence) β}
    (h : ∀ item, TakesInARow (step item)) : TakesInARow (items.mapM step) := by
  induction items with
  | nil =>
      rw [List.mapM_nil]
      exact of_pure []
  | cons item rest ih =>
      rw [List.mapM_cons]
      exact (h item).bind fun result => ih.bind fun results => of_pure (result :: results)

end TakesInARow

end Sequence

namespace Migration

open Sequence

variable {content : Except GenerationFault String} {label : String} {kind : MigrationKind}
  {resource : Option String} {before after : Sequence}

/-- A script comes before its token: what cannot be made is refused without a look at the sequence. -/
theorem run_issue (content : Except GenerationFault String) (label : String) (kind : MigrationKind)
    (resource : Option String) (before : Sequence) :
    run (issue content label kind resource) before =
      match content, before.token with
      | .ok text, .ok token =>
          (.ok (artifactOf s!"{token}_{label}" text kind resource), before.advance token)
      | .ok _, .error fault => (.error fault, before)
      | .error fault, _ => (.error fault, before) := by
  unfold issue
  rw [run_bind, run_ofExcept]
  cases content with
  | error fault => rfl
  | ok text =>
      simp only [run_bind, run_issueToken]
      cases before.token <;> rfl

theorem run_issue_eq_ok {artifact : Artifact} :
    run (issue content label kind resource) before = (.ok artifact, after) ↔
      ∃ text token, content = .ok text ∧ before.token = .ok token ∧
        artifact = artifactOf s!"{token}_{label}" text kind resource ∧
          after = before.advance token := by
  rw [run_issue]
  cases content with
  | error fault => simp
  | ok text => cases before.token <;> simp [eq_comm]

theorem run_issue_eq_error {fault : GenerationFault} :
    run (issue content label kind resource) before = (.error fault, after) →
      content = .error fault ∨ before.token = .error fault := by
  rw [run_issue]
  cases content with
  | error first => simp +contextual
  | ok text => cases before.token <;> simp +contextual

theorem takesInARow_issue (content : Except GenerationFault String) (label : String)
    (kind : MigrationKind) (resource : Option String) :
    TakesInARow (issue content label kind resource) :=
  (TakesInARow.ofExcept content).bind fun _ =>
    TakesInARow.issueToken.bind fun _ => TakesInARow.of_pure _

theorem takesInARow_migrations (config : ApiConfig) : TakesInARow (migrations config) :=
  (TakesInARow.ofExcept _).bind fun _ =>
    (TakesInARow.mapM fun _ => takesInARow_issue _ _ _ _).bind fun _ =>
      (TakesInARow.mapM fun _ => takesInARow_issue _ _ _ _).bind fun _ => TakesInARow.of_pure _

end Migration

end ApiScaffold
