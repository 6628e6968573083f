import Mathlib
import ApiScaffold.Proofs.Bundle.FileMap
import ApiScaffold.Proofs.Migration.Success
import ApiScaffold.Proofs.OpenApi.Document

/-! When an accepted configuration is built. The checks do not look at everything that generation needs:
a resource whose name has no letter and no digit has no module, integers may be too long to be written,
and the name of an index may be too long for the database. -/

namespace ApiScaffold

open Sequence

/-- What generation needs beyond an accepted configuration: modules have names, and what tables, models
and indexes state can be written. -/
structure ApiConfig.Generable (config : ApiConfig) : Prop where
  modules : ∀ resource ∈ config.resources, ∃ c ∈ resource.name.toList, Naming.isWordChar c = true
  defaults : Migration.DefaultsWritable config
  bounds : ∀ resource ∈ config.resources, ∀ field ∈ resource.storedFields, Schema.BoundsWritable field
  index_names : Migration.IndexNamesFit config

/-- The bounds of a configuration are integers and doubles. -/
def ApiConfig.InRange (config : ApiConfig) : Prop :=
  ∀ resource ∈ config.resources, ∀ field ∈ resource.fields, ∀ bound ∈ field.bounds, bound.InRange

variable {config : ApiConfig} {options : Bundle.Options} {before after : Sequence}

/-- Bounds are compared as doubles, so those of an accepted configuration can be written. -/
theorem ApiConfig.Accepted.boundsWritable (h : config.Accepted) (hrange : config.InRange) :
    ∀ resource ∈ config.resources, ∀ field ∈ resource.storedFields, Schema.BoundsWritable field := by
  intro resource hresource field hfield
  obtain ⟨report, hreport, -⟩ := h
  have hmem := (ResourceSpec.mem_storedFields.mp hfield).1
  have hcheckable := ApiConfig.exists_report_iff.mp ⟨report, hreport⟩ resource hresource field hmem
  exact Schema.boundsWritable_of_inRange hcheckable.bounds (hrange resource hresource field hmem)

theorem exists_schemaArtifacts_iff (h : config.Accepted) :
    (∃ schemas, Schema.artifacts config = .ok schemas) ↔
      ∀ resource ∈ config.resources, Naming.moduleName resource.name ≠ "" ∧
        ∀ field ∈ resource.storedFields,
          (field.required = false → field.default.hasText = true) ∧ Schema.BoundsWritable field := by
  rw [Schema.artifacts, Outcome.exists_mapM_iff]
  exact forall₂_congr fun resource hresource =>
    Schema.exists_artifact_iff (h.fieldNames_nodup hresource)
      fun field hfield => h.exists_mapField hresource hfield

theorem default_hasText {field : FieldSpec}
    (h : ∀ default ∈ field.declaredDefault, default.hasText = true) : field.default.hasText = true := by
  rw [FieldSpec.default]
  cases hdeclared : field.declaredDefault with
  | none => rfl
  | some default => exact h default hdeclared

/-- The API document is there where all fields can be written. -/
theorem exists_openApi (h : config.Accepted) (hgenerable : config.Generable) (serverUrl : Option String) :
    ∃ file, OpenApi.artifact config serverUrl = .ok file := by
  obtain ⟨schemas, hschemas⟩ := OpenApi.exists_schemas h.resolved.fields_mapped
  refine ⟨_, OpenApi.artifact_eq_ok_iff.mpr
    ⟨_, OpenApi.document_eq_ok.mpr ⟨schemas, hschemas, rfl⟩, ?_, rfl⟩⟩
  refine OpenApi.hasText_documentOf (fun resource hresource field hfield => ?_) hschemas
  exact ⟨hgenerable.defaults resource hresource field hfield,
    hgenerable.bounds resource hresource field hfield⟩

theorem run_build_of_accepted (h : config.Accepted) :
    run (build config options) before = run (Bundle.generate config options).lift before := by
  obtain ⟨report, hreport, hnone⟩ := h
  simp only [build, hreport, hnone, Bool.false_eq_true, if_false]

theorem exists_run_generate (h : config.Accepted) (hgenerable : config.Generable)
    (htokens : before.CanIssue (Migration.scripts config).length) :
    ∃ bundle after, run (Bundle.generate config options) before = (.ok bundle, after) := by
  obtain ⟨schemas, hschemas⟩ := (exists_schemaArtifacts_iff h).mpr fun resource hresource =>
    ⟨Naming.moduleName_ne_empty_iff.mpr (hgenerable.modules resource hresource),
      fun field hfield => ⟨fun _ => default_hasText (hgenerable.defaults resource hresource field hfield),
        hgenerable.bounds resource hresource field hfield⟩⟩
  obtain ⟨migrations, after, hmigrations⟩ := (Migration.exists_run_migrations_iff h).mpr
    ⟨hgenerable.defaults, hgenerable.index_names, htokens⟩
  obtain ⟨file, hfile⟩ := exists_openApi h hgenerable options.serverUrl
  have hwritten : run (some <$> Issuing.ofExcept (OpenApi.artifact config options.serverUrl)) after =
      (.ok (some file), after) := by
    rw [run_map_ofExcept, hfile]
    rfl
  unfold Bundle.generate
  rw [run_bind, run_ofExcept, hschemas]
  cases options.includeOpenApi with
  | true =>
      exact ⟨_, after, run_bind_eq_ok.mpr ⟨migrations, after, hmigrations,
        run_bind_eq_ok.mpr ⟨some file, after, hwritten, rfl⟩⟩⟩
  | false => exact ⟨_, after, run_bind_eq_ok.mpr ⟨migrations, after, hmigrations, rfl⟩⟩

/-- **When an accepted configuration is built.** There is a result exactly if every module has a name,
all defaults, bounds and names of indexes can be written, and the sequence gives a token for every
script. Bounds are never in the way as long as they are integers and doubles, and a new sequence gives
as many tokens as there are counters that can be written. -/
theorem build_succeeds_iff (h : config.Accepted) (options : Bundle.Options) (before : Sequence) :
    ((∃ bundle after, run (build config options) before = (.ok bundle, after)) ↔
        config.Generable ∧ before.CanIssue (Migration.scripts config).length) ∧
      (config.InRange → ∀ resource ∈ config.resources, ∀ field ∈ resource.storedFields,
        Schema.BoundsWritable field) ∧
      ∀ stamp count, ({ stamp := stamp } : Sequence).CanIssue count ↔ count < integerTextBound := by
  refine ⟨⟨?_, ?_⟩, h.boundsWritable, fun _ _ => canIssue_new_iff⟩
  · rintro ⟨bundle, after, hrun⟩
    obtain ⟨-, hgenerated⟩ := run_build_eq_ok hrun
    have hschemas := (exists_schemaArtifacts_iff h).mp ⟨bundle.schemas, hgenerated.schemas⟩
    obtain ⟨hdefaults, hnames, htokens⟩ := (Migration.exists_run_migrations_iff h).mp
      ⟨bundle.migrations, after, hgenerated.migrations⟩
    refine ⟨⟨fun resource hresource => ?_, hdefaults, fun resource hresource field hfield => ?_,
      hnames⟩, htokens⟩
    · exact Naming.moduleName_ne_empty_iff.mp (hschemas resource hresource).1
    · exact ((hschemas resource hresource).2 field hfield).2
  · rintro ⟨hgenerable, htokens⟩
    obtain ⟨bundle, after, hrun⟩ := @exists_run_generate config options before h hgenerable htokens
    refine ⟨bundle, after, ?_⟩
    rw [run_build_of_accepted h, run_lift, hrun]
    rfl

/-- A blog is built, whatever its options are, from every new sequence. -/
theorem build_succeeds_blog :
    Blog.config.Accepted ∧ Blog.config.Generable ∧ ∀ options stamp, ∃ bundle after,
      run (build Blog.config options) { stamp := stamp } = (.ok bundle, after) := by
  have hrange : Blog.config.InRange := by unfold ApiConfig.InRange; decide
  have hmodules : ∀ resource ∈ Blog.config.resources, Naming.moduleName resource.name ≠ "" := by decide
  have hgenerable : Blog.config.Generable :=
    { modules := fun resource hresource =>
        Naming.moduleName_ne_empty_iff.mp (hmodules resource hresource)
      defaults := by unfold Migration.DefaultsWritable; decide +kernel
      bounds := Blog.accepted.boundsWritable hrange
      index_names := by unfold Migration.IndexNamesFit; decide +kernel }
  refine ⟨Blog.accepted, hgenerable, fun options stamp => ?_⟩
  obtain ⟨hiff, -, hnew⟩ := build_succeeds_iff Blog.accepted options { stamp := stamp }
  refine hiff.mpr ⟨hgenerable, (hnew stamp _).mpr ?_⟩
  have hcount : (Migration.scripts Blog.config).length = 3 := by decide
  have hlarge : 10 ≤ integerTextBound := tenTo_mono (by decide : 1 ≤ Number.digitLimit)
  omega

/-! ### Names without letters -/

/-- A resource whose name is an identifier without letters and digits. -/
def nameless : ApiConfig :=
  { name := "Blog", resources := [{ name := "_", fields := [{ name := "title", type := .string }] }] }

/-- A configuration may be accepted and not be built: there is no module for a resource without a name. -/
theorem build_fails_nameless :
    nameless.Accepted ∧ ∃ after, run (build nameless {}) { stamp := "202401010000" } =
      (.error (.generation (.shape ⟨["name"], .textTooShort 1⟩)), after) := by
  have haccepted : nameless.Accepted := by decide +kernel
  have hfault : Schema.artifacts nameless = .error (.shape ⟨["name"], .textTooShort 1⟩) := by
    decide +kernel
  refine ⟨haccepted, { stamp := "202401010000" }, ?_⟩
  rw [run_build_of_accepted haccepted, run_lift, Bundle.generate, run_bind, run_ofExcept, hfault]
  rfl

end ApiScaffold
