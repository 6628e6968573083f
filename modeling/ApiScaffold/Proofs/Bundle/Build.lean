import Mathlib
import ApiScaffold.Bundle
import ApiScaffold.Proofs.Check.Accepted
import ApiScaffold.Proofs.Issuing

/-! What a run that builds a configuration consists of: an accepted configuration, its schemas, its
migrations, which alone take tokens, its endpoints, and the artifacts of the whole. -/

namespace ApiScaffold

open Sequence

variable {config : ApiConfig} {options : Bundle.Options} {before after : Sequence} {bundle : Bundle}

theorem run_map_ofExcept {α β : Type} (f : α → β) (outcome : Except GenerationFault α)
    (sequence : Sequence) :
    run (f <$> Issuing.ofExcept outcome) sequence = (outcome.map f, sequence) := by
  cases outcome <;> rfl

/-- The parts of what is generated. -/
structure Generated (config : ApiConfig) (options : Bundle.Options) (before : Sequence)
    (bundle : Bundle) (after : Sequence) : Prop where
  schemas : Schema.artifacts config = .ok bundle.schemas
  migrations : run (Migration.migrations config) before = (.ok bundle.migrations, after)
  endpoints : bundle.endpoints = Endpoint.artifacts config
  router : bundle.router = Router.artifact config (Bundle.endpointSpecs bundle.endpoints)
  types : bundle.types = TypeExports.artifact config bundle.schemas
  openApi : ∀ document ∈ bundle.openApi, OpenApi.artifact config options.serverUrl = .ok document

theorem generated_of_run (h : run (Bundle.generate config options) before = (.ok bundle, after)) :
    Generated config options before bundle after := by
  unfold Bundle.generate at h
  rw [run_bind, run_ofExcept] at h
  cases hschemas : Schema.artifacts config with
  | error fault =>
      rw [hschemas] at h
      cases (Prod.mk.inj h).1
  | ok schemas =>
      simp only [hschemas] at h
      obtain ⟨migrations, between, hmigrations, h⟩ := run_bind_eq_ok.mp h
      split at h
      · obtain ⟨made, last, hmade, hpure⟩ := run_bind_eq_ok.mp h
        rw [run_map_ofExcept] at hmade
        obtain ⟨houtcome, rfl⟩ := Prod.mk.inj hmade
        obtain ⟨document, hdocument, rfl⟩ := Outcome.map_eq_ok.mp houtcome
        obtain ⟨hbundle, rfl⟩ := Prod.mk.inj hpure
        obtain rfl := Except.ok.inj hbundle
        refine ⟨hschemas, hmigrations, rfl, rfl, rfl, fun other hother => ?_⟩
        rw [hdocument, Option.some.inj hother]
      · obtain ⟨hbundle, rfl⟩ := Prod.mk.inj h
        obtain rfl := Except.ok.inj hbundle
        exact ⟨hschemas, hmigrations, rfl, rfl, rfl,
          fun other hother => absurd hother (Option.not_mem_none other)⟩

theorem run_lift {α : Type} (step : Issuing α) (sequence : Sequence) :
    run step.lift sequence =
      ((run step sequence).1.mapError .generation, (run step sequence).2) := by
  change (match run step sequence with | (outcome, after) => (outcome.mapError _, after)) = _
  rfl

/-- Only an accepted configuration is built, and then all of it. -/
theorem run_build_eq_ok (h : run (build config options) before = (.ok bundle, after)) :
    config.Accepted ∧ Generated config options before bundle after := by
  unfold build at h
  cases hreport : config.report with
  | error fault =>
      simp only [hreport, run_throw] at h
      cases (Prod.mk.inj h).1
  | ok report =>
      simp only [hreport] at h
      cases herrors : report.hasErrors with
      | true =>
          simp only [herrors, if_true, run_throw] at h
          cases (Prod.mk.inj h).1
      | false =>
          simp only [herrors, Bool.false_eq_true, if_false, run_lift] at h
          obtain ⟨houtcome, hafter⟩ := Prod.mk.inj h
          refine ⟨⟨report, hreport, herrors⟩, generated_of_run ?_⟩
          rw [← hafter, ← Outcome.mapError_eq_ok.mp houtcome]

end ApiScaffold
