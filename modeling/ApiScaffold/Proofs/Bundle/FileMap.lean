import Mathlib
import ApiScaffold.Proofs.Bundle.Places

/-! The contents by path and the checksums by key. They have an entry for every artifact exactly if
the plurals of the modules of the resources differ, which an accepted configuration does not promise. -/

namespace ApiScaffold

open Sequence

variable {config : ApiConfig} {options : Bundle.Options} {before after : Sequence} {bundle : Bundle}

namespace Bundle

theorem length_fileMap_iff :
    bundle.fileMap.length = bundle.artifacts.length ↔ (bundle.artifacts.map Artifact.place).Nodup := by
  have hlength := @Keyed.length_ofList_iff String
    (bundle.artifacts.map fun artifact => (artifact.place, artifact.content))
  rw [List.length_map, List.map_map] at hlength
  exact hlength

theorem length_checksumMap_iff :
    bundle.checksumMap.length = bundle.artifacts.length ↔
      (bundle.artifacts.map Artifact.key).Nodup := by
  have hlength := @Keyed.length_ofList_iff String
    (bundle.artifacts.map fun artifact => (artifact.key, artifact.sum))
  rw [List.length_map, List.map_map] at hlength
  exact hlength

end Bundle

theorem Generated.places_nodup_iff (h : Generated config options before bundle after) :
    (bundle.artifacts.map Artifact.place).Nodup ↔ config.ModulesApart := by
  obtain ⟨tokens, htaken, hlength, hissued⟩ := Migration.run_migrations h.migrations
  apply h.nodup_map_iff fun _ _ hstays => hstays.place
  · exact Migration.places_nodup_of_issued htaken hlength hissued
  · intro text htext
    obtain ⟨artifact, hartifact, rfl⟩ := List.mem_map.mp htext
    obtain ⟨entry, hentry⟩ := Migration.exists_isIssued hissued hartifact
    rw [hentry.place]
    exact Migration.head?_scriptPath entry.1 entry.2

theorem Generated.keys_nodup_iff (haccepted : config.Accepted)
    (h : Generated config options before bundle after) :
    (bundle.artifacts.map Artifact.key).Nodup ↔ config.ModulesApart := by
  obtain ⟨tokens, htaken, hlength, hissued⟩ := Migration.run_migrations h.migrations
  apply h.nodup_map_iff fun _ _ hstays => hstays.key
  · exact Migration.keys_nodup_of_issued haccepted hlength hissued
  · intro text htext
    obtain ⟨artifact, hartifact, rfl⟩ := List.mem_map.mp htext
    obtain ⟨entry, hentry⟩ := Migration.exists_isIssued hissued hartifact
    exact hentry.head?_key

/-- **When nothing is overwritten.** The artifacts of a run have different paths, different keys, an
entry each in the contents by path and an entry each in the checksums by key, all exactly if the
plurals of the modules of the resources differ. -/
theorem artifacts_apart_iff (h : run (build config options) before = (.ok bundle, after)) :
    ((bundle.artifacts.map Artifact.place).Nodup ↔ config.ModulesApart) ∧
      ((bundle.artifacts.map Artifact.key).Nodup ↔ config.ModulesApart) ∧
      (bundle.fileMap.length = bundle.artifacts.length ↔ config.ModulesApart) ∧
      (bundle.checksumMap.length = bundle.artifacts.length ↔ config.ModulesApart) := by
  obtain ⟨haccepted, hgenerated⟩ := run_build_eq_ok h
  have hplaces := hgenerated.places_nodup_iff
  have hkeys := hgenerated.keys_nodup_iff haccepted
  exact ⟨hplaces, hkeys, Bundle.length_fileMap_iff.trans hplaces,
    Bundle.length_checksumMap_iff.trans hkeys⟩

theorem exists_of_isOk {ε α : Type} {step : ExceptT ε (StateM Sequence) α} {before : Sequence}
    (h : (run step before).1.isOk = true) :
    ∃ result after, run step before = (.ok result, after) := by
  cases hrun : run step before with
  | mk outcome after =>
      cases outcome with
      | error fault =>
          rw [hrun] at h
          cases h
      | ok result => exact ⟨result, after, rfl⟩

/-- The artifacts of a blog all keep their places. -/
theorem artifacts_apart_blog :
    ∃ bundle after, run (build Blog.config {}) ⟨"202401010000", 1, 4, []⟩ = (.ok bundle, after) ∧
      Blog.config.ModulesApart ∧ (bundle.artifacts.map Artifact.place).Nodup ∧
      (bundle.artifacts.map Artifact.key).Nodup ∧
      bundle.fileMap.length = bundle.artifacts.length ∧
      bundle.checksumMap.length = bundle.artifacts.length := by
  obtain ⟨bundle, after, hrun⟩ := exists_of_isOk
    (show (run (build Blog.config {}) ⟨"202401010000", 1, 4, []⟩).1.isOk = true by decide +kernel)
  have hapart : Blog.config.ModulesApart := by decide +kernel
  obtain ⟨hplaces, hkeys, hfiles, hsums⟩ := artifacts_apart_iff hrun
  exact ⟨bundle, after, hrun, hapart, hplaces.mpr hapart, hkeys.mpr hapart, hfiles.mpr hapart,
    hsums.mpr hapart⟩

/-! ### Modules that agree -/

/-- Two names that differ in their capitals. Their tables differ, their modules do not. -/
def twoBoxes : ApiConfig where
  name := "Boxes"
  resources := [
    { name := "BOX", fields := [{ name := "label", type := .string }] },
    { name := "Box", fields := [{ name := "label", type := .string }] }]

/-- A configuration may be accepted and artifacts of it be overwritten: of 17 artifacts 11 paths are
left, and no more checksums. -/
theorem artifacts_overwritten_twoBoxes :
    twoBoxes.Accepted ∧ ∃ bundle after,
      run (build twoBoxes {}) ⟨"202401010000", 1, 4, []⟩ = (.ok bundle, after) ∧
        bundle.artifacts.length = 17 ∧ bundle.fileMap.length = 11 ∧
        bundle.checksumMap.length = 11 ∧ ¬(bundle.artifacts.map Artifact.place).Nodup ∧
        ¬(bundle.artifacts.map Artifact.key).Nodup := by
  have hlengths : (run (build twoBoxes {}) ⟨"202401010000", 1, 4, []⟩).1.toOption.map
      (fun bundle => (bundle.artifacts.length, bundle.fileMap.length, bundle.checksumMap.length)) =
        some (17, 11, 11) := by decide +kernel
  cases hrun : run (build twoBoxes {}) ⟨"202401010000", 1, 4, []⟩ with
  | mk outcome after =>
      rw [hrun] at hlengths
      cases outcome with
      | error fault => cases hlengths
      | ok bundle =>
          obtain ⟨haccepted, hgenerated⟩ := run_build_eq_ok hrun
          obtain ⟨hartifacts, hmaps⟩ := Prod.mk.inj (Option.some.inj hlengths)
          obtain ⟨hfiles, hsums⟩ := Prod.mk.inj hmaps
          have hapart : ¬twoBoxes.ModulesApart := by decide +kernel
          refine ⟨haccepted, bundle, after, rfl, hartifacts, hfiles, hsums, ?_, ?_⟩
          · exact fun hnodup => hapart (hgenerated.places_nodup_iff.mp hnodup)
          · exact fun hnodup => hapart ((hgenerated.keys_nodup_iff haccepted).mp hnodup)

end ApiScaffold
