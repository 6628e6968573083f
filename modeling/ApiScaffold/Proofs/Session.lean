import Mathlib
import ApiScaffold.Proofs.Bundle.Build
import ApiScaffold.Proofs.Migration.Issued
import ApiScaffold.Session

/-! Sessions on one sequence of tokens. Whatever is asked, and whether or not it fails, the tokens that
are taken have consecutive counters, and the migrations that are returned are named by tokens in the
order in which these were taken. -/

namespace ApiScaffold.Session

open Sequence Migration

/-! ### Migrations with their tokens -/

/-- A migration is named by a token: its name starts with the token and an underscore, and its path is
made of its name. -/
def IsNamedBy (token : String) (artifact : Artifact) : Prop :=
  ∃ label, artifact.name = token ++ "_" ++ label ∧
    artifact.path = some ("migrations/" ++ artifact.name ++ ".sql")

/-- Between two states of a sequence, tokens are taken in a row, and migrations are named by some of
them in order. -/
def Accounts (before : Sequence) (artifacts : List Artifact) (after : Sequence) : Prop :=
  ∃ tokens owners, Taken before tokens after ∧ owners.Sublist tokens ∧
    List.Forall₂ IsNamedBy owners artifacts

section Accounts

variable {before between after : Sequence} {artifacts others : List Artifact}

theorem Accounts.append (h : Accounts before artifacts between)
    (hothers : Accounts between others after) : Accounts before (artifacts ++ others) after := by
  obtain ⟨tokens, owners, htaken, hsublist, hnamed⟩ := h
  obtain ⟨tokens', owners', htaken', hsublist', hnamed'⟩ := hothers
  exact ⟨tokens ++ tokens', owners ++ owners', htaken.append htaken', hsublist.append hsublist',
    List.rel_append hnamed hnamed'⟩

/-- Tokens may be taken without a migration, as a fault leaves them. -/
theorem Accounts.of_takesInARow {ε α : Type} {step : ExceptT ε (StateM Sequence) α}
    (h : TakesInARow step) (before : Sequence) : Accounts before [] (run step before).2 := by
  obtain ⟨tokens, htaken⟩ := h before
  exact ⟨tokens, [], htaken, List.nil_sublist tokens, .nil⟩

theorem isNamedBy_artifactOf (token label content : String) (kind : MigrationKind)
    (resource : Option String) :
    IsNamedBy token (artifactOf (token ++ "_" ++ label) content kind resource) :=
  ⟨label, rfl, rfl⟩

theorem accounts_issue {content : Except GenerationFault String} {label : String}
    {kind : MigrationKind} {resource : Option String} {artifact : Artifact}
    (h : run (issue content label kind resource) before = (.ok artifact, after)) :
    Accounts before [artifact] after := by
  obtain ⟨text, token, -, htoken, rfl, rfl⟩ := run_issue_eq_ok.mp h
  exact ⟨[token], [token], .cons htoken .nil, List.Sublist.refl _,
    .cons (isNamedBy_artifactOf token label text kind resource) .nil⟩

theorem isNamedBy_of_isScript {pairs : List (ResourceSpec × Sql.Table)} {tokens : List String}
    {kind : MigrationKind} {content : ResourceSpec × Sql.Table → Except GenerationFault String}
    (hlength : tokens.length = pairs.length)
    (h : List.Forall₂ (IsScript kind content) (pairs.zip tokens) artifacts) :
    List.Forall₂ IsNamedBy tokens artifacts := by
  have howners : (pairs.zip tokens).map Prod.snd = tokens := List.map_snd_zip (le_of_eq hlength)
  rw [← howners, List.forall₂_map_left_iff]
  refine h.imp ?_
  rintro ⟨pair, token⟩ artifact ⟨text, -, rfl⟩
  exact isNamedBy_artifactOf token _ text kind _

theorem accounts_migrations {config : ApiConfig}
    (h : run (migrations config) before = (.ok artifacts, after)) :
    Accounts before artifacts after := by
  obtain ⟨tables, creations, indexes, tokens, tokens', between, -, htaken, htaken', hlength, hlength',
    hcreations, hindexes, rfl⟩ := run_migrations_eq_ok h
  exact ⟨tokens ++ tokens', tokens ++ tokens', htaken.append htaken', List.Sublist.refl _,
    List.rel_append (isNamedBy_of_isScript hlength hcreations)
      (isNamedBy_of_isScript hlength' hindexes)⟩

end Accounts

/-! ### Single requests -/

theorem takesInARow_lift {α : Type} {step : Issuing α} (h : TakesInARow step) :
    TakesInARow step.lift := by
  intro before
  rw [run_lift]
  exact h before

theorem takesInARow_build (config : ApiConfig) (options : Bundle.Options) :
    TakesInARow (build config options) := by
  have hgenerate : TakesInARow (Bundle.generate config options) := by
    refine (TakesInARow.ofExcept _).bind fun _ => (takesInARow_migrations config).bind fun _ => ?_
    dsimp only
    split
    · exact ((TakesInARow.ofExcept _).map some).bind fun _ => TakesInARow.of_pure _
    · exact (TakesInARow.of_pure none).bind fun _ => TakesInARow.of_pure _
  unfold build
  split
  · exact TakesInARow.of_throw _
  · split
    · exact TakesInARow.of_throw _
    · exact takesInARow_lift hgenerate

theorem takesInARow_answer (request : Request) : TakesInARow request.answer := by
  have hissue := fun content label kind resource =>
    takesInARow_lift (takesInARow_issue content label kind resource)
  cases request with
  | token => exact (takesInARow_lift TakesInARow.issueToken).map _
  | build config options => exact (takesInARow_build config options).map _
  | migrations config => exact takesInARow_lift (takesInARow_migrations config)
  | createTable tables resource table => exact (hissue _ _ _ _).map _
  | createIndexes resource table => exact (hissue _ _ _ _).map _
  | rollback resources => exact (hissue _ _ _ _).map _
  | seed resource records => exact (hissue _ _ _ _).map _

theorem run_map_eq_ok {ε α β : Type} {step : ExceptT ε (StateM Sequence) α} {f : α → β} {b : β}
    {before after : Sequence} :
    run (f <$> step) before = (.ok b, after) ↔ ∃ a, run step before = (.ok a, after) ∧ f a = b := by
  rw [run_map]
  cases run step before with
  | mk outcome between => cases outcome <;> simp [Except.map, and_comm]

theorem run_lift_eq_ok {α : Type} {step : Issuing α} {a : α} {before after : Sequence} :
    run step.lift before = (.ok a, after) ↔ run step before = (.ok a, after) := by
  rw [run_lift]
  cases run step before with
  | mk outcome between => simp [Outcome.mapError_eq_ok]

theorem accounts_lift_issue {content : Except GenerationFault String} {label : String}
    {kind : MigrationKind} {resource : Option String} {artifacts : List Artifact}
    {before after : Sequence}
    (h : run ((fun artifact => [artifact]) <$>
      Issuing.lift (issue content label kind resource)) before = (.ok artifacts, after)) :
    Accounts before artifacts after := by
  obtain ⟨artifact, hissue, rfl⟩ := run_map_eq_ok.mp h
  exact accounts_issue (run_lift_eq_ok.mp hissue)

theorem accounts_of_answer_eq_ok {request : Request} {artifacts : List Artifact}
    {before after : Sequence} (h : run request.answer before = (.ok artifacts, after)) :
    Accounts before artifacts after := by
  cases request with
  | token =>
      obtain ⟨token, htoken, rfl⟩ := run_map_eq_ok.mp h
      have haccounts := Accounts.of_takesInARow TakesInARow.issueToken before
      rwa [run_lift_eq_ok.mp htoken] at haccounts
  | build config options =>
      obtain ⟨bundle, hbuild, rfl⟩ := run_map_eq_ok.mp h
      exact accounts_migrations (run_build_eq_ok hbuild).2.migrations
  | migrations config => exact accounts_migrations (run_lift_eq_ok.mp h)
  | createTable tables resource table => exact accounts_lift_issue h
  | createIndexes resource table => exact accounts_lift_issue h
  | rollback resources => exact accounts_lift_issue h
  | seed resource records => exact accounts_lift_issue h

/-- One request, answered or refused, accounts for the tokens it takes. -/
theorem accounts_answer (request : Request) (before : Sequence) :
    Accounts before (Reply.artifacts (run request.answer before).1) (run request.answer before).2 := by
  cases hrun : run request.answer before with
  | mk outcome after =>
      cases outcome with
      | ok artifacts => exact accounts_of_answer_eq_ok hrun
      | error fault =>
          have haccounts := Accounts.of_takesInARow (takesInARow_answer request) before
          rwa [hrun] at haccounts

/-! ### Whole sessions -/

theorem accounts_serve (requests : List Request) (before : Sequence) :
    Accounts before (returned (serve requests before).1) (serve requests before).2 := by
  induction requests generalizing before with
  | nil => exact ⟨[], [], .nil, List.Sublist.refl _, .nil⟩
  | cons request rest ih =>
      have hfirst := accounts_answer request before
      exact hfirst.append (ih (run request.answer before).2)

section Named

variable {sequence : Sequence} {owners : List String} {artifacts : List Artifact}

/-- Names that start with different tokens differ, whatever follows the tokens. -/
theorem names_nodup (hnodup : owners.Nodup) (hcounter : ∀ token ∈ owners, ∃ n, token = sequence.tokenAt n)
    (h : List.Forall₂ IsNamedBy owners artifacts) : (artifacts.map Artifact.name).Nodup := by
  induction h with
  | nil => exact List.nodup_nil
  | @cons token artifact owners artifacts hfirst hrest ih =>
      obtain ⟨hnew, hnodup⟩ := List.nodup_cons.mp hnodup
      obtain ⟨hcounter, hcounters⟩ := List.forall_mem_cons.mp hcounter
      rw [List.map_cons, List.nodup_cons]
      refine ⟨?_, ih hnodup hcounters⟩
      intro hmem
      obtain ⟨other, hother, hname⟩ := List.mem_map.mp hmem
      obtain ⟨token', htoken', label', hlabel', -⟩ := exists_of_mem_forall₂ hrest.flip hother
      obtain ⟨label, hlabel, -⟩ := hfirst
      obtain ⟨m, rfl⟩ := hcounter
      obtain ⟨n, rfl⟩ := hcounters token' htoken'
      rw [hlabel, hlabel'] at hname
      rw [(tokenAt_labelled_inj hname).1] at htoken'
      exact hnew htoken'

/-- Paths are made of names alone. -/
theorem paths_nodup (h : List.Forall₂ IsNamedBy owners artifacts)
    (hnames : (artifacts.map Artifact.name).Nodup) : (artifacts.map Artifact.path).Nodup := by
  have hpath : ∀ artifact ∈ artifacts,
      artifact.path = some ("migrations/" ++ artifact.name ++ ".sql") := by
    intro artifact hmem
    obtain ⟨token, -, label, -, hpath⟩ := exists_of_mem_forall₂ h.flip hmem
    exact hpath
  rw [List.map_congr_left hpath, ← Function.comp_def
    (fun name : String => some ("migrations/" ++ name ++ ".sql")) Artifact.name, ← List.map_map]
  apply hnames.map
  intro name other heq
  exact (String.append_right_inj _).mp ((String.append_left_inj _).mp (Option.some.inj heq))

end Named

/-- A session keeps account of its tokens and migrations. -/
structure Numbered (opened : Sequence) (artifacts : List Artifact) (closed : Sequence) : Prop where
  issued : closed.issued.map Except.ok = (List.range closed.issued.length).map fun i : Nat =>
    ({ opened with next := opened.next + i } : Sequence).token
  next : closed.next = opened.next + closed.issued.length
  tokens : closed.issued.Nodup
  names : (artifacts.map Artifact.name).Nodup
  paths : (artifacts.map Artifact.path).Nodup
  owners : ∃ owners, owners.Sublist closed.issued ∧ List.Forall₂ IsNamedBy owners artifacts

/-- **The migrations of a session are numbered.** From whatever counter and width a sequence starts,
and whatever is asked of it, in whatever order and whether or not it fails: the tokens issued are those
of the counters from the start on, the next counter follows them, no two are alike, and the migrations
returned have names of their own, each with a token of its own in front, and paths of their own. -/
theorem serve_numbered (stamp : String) (start width : Int) (requests : List Request) :
    Numbered ⟨stamp, start, width, []⟩ (returned (serve requests ⟨stamp, start, width, []⟩).1)
      (serve requests ⟨stamp, start, width, []⟩).2 := by
  obtain ⟨tokens, owners, htaken, hsublist, hnamed⟩ :=
    accounts_serve requests ⟨stamp, start, width, []⟩
  have hcounter : ∀ token ∈ owners, ∃ n, token = tokenAt ⟨stamp, start, width, []⟩ n := by
    intro token hmem
    have htoken := hsublist.subset hmem
    rw [htaken.eq_map] at htoken
    obtain ⟨i, -, hi⟩ := List.mem_map.mp htoken
    exact ⟨_, hi.symm⟩
  have hnames := names_nodup (hsublist.nodup htaken.nodup) hcounter hnamed
  have hissued : (serve requests ⟨stamp, start, width, []⟩).2.issued = tokens :=
    congrArg Sequence.issued htaken.after_eq
  exact {
    issued := by
      rw [hissued]
      exact htaken.map_ok
    next := by
      rw [hissued]
      exact congrArg Sequence.next htaken.after_eq
    tokens := by
      rw [hissued]
      exact htaken.nodup
    names := hnames
    paths := paths_nodup hnamed hnames
    owners := ⟨owners, hissued ▸ hsublist, hnamed⟩ }

end ApiScaffold.Session
