import Mathlib
import ApiScaffold.Proofs.Bundle.Totality
import ApiScaffold.Proofs.Sql.IndexScript

/-! Which artifacts of a run are reported as changed, given the checksums of an earlier run. As long as
checksums tell contents apart, they are those under a new key and those with another content. Neither the
keys nor the contents depend on the tokens that migrations take, so a second run of the same configuration
changes nothing. -/

namespace ApiScaffold

open Sequence

/-! ### Checksums -/

namespace Digest

theorem not_isBlank_hexDigit (n : Nat) : Text.isBlank (Text.hexDigit (n % 16)) = false := by
  have hdigits : ∀ digit < 16, Text.isBlank (Text.hexDigit digit) = false := by decide
  exact hdigits _ (Nat.mod_lt n (by omega))

theorem not_isBlank_of_mem_hexDigits {width n : Nat} {c : Char} (h : c ∈ Text.hexDigits width n) :
    Text.isBlank c = false := by
  induction width generalizing n with
  | zero => exact absurd h List.not_mem_nil
  | succ width ih =>
      rw [Text.hexDigits, List.mem_append, List.mem_singleton] at h
      rcases h with hfront | rfl
      · exact ih hfront
      · exact not_isBlank_hexDigit n

/-- A checksum has no blanks, so nothing is trimmed from it. -/
theorem trim_checksum (text : String) : Text.trim (checksum text) = checksum text := by
  have hall : ∀ c ∈ (checksum text).toList, Text.isBlank c = false := by
    intro c hc
    rw [checksum, Text.hexOfBytes, String.toList_ofList] at hc
    obtain ⟨byte, -, hdigit⟩ := List.mem_flatMap.mp hc
    exact not_isBlank_of_mem_hexDigits hdigit
  rw [Text.trim, Text.trimChars_eq_self (fun c hc => hall c (List.mem_of_mem_head? hc))
    (fun c hc => hall c (List.mem_of_mem_getLast? hc)), String.ofList_toList]

theorem checksum_ne_empty (text : String) : checksum text ≠ "" := by
  intro h
  have hchars := congrArg String.toList h
  simp [checksum, Text.hexOfBytes, sha256, Chain.words, bigEndian, Text.hexDigits] at hchars

end Digest

theorem hasChanged_none (content : String) : hasChanged content none = true := rfl

/-- Contents are compared by their checksums. -/
theorem hasChanged_checksum (content other : String) :
    hasChanged content (some (Digest.checksum other)) = true ↔
      Digest.checksum other ≠ Digest.checksum content := by
  rw [hasChanged, someText_of_ne (Digest.checksum_ne_empty other)]
  simp only [Digest.trim_checksum, bne_iff_ne, ne_comm]

namespace Bundle

variable {before after : Bundle}

/-- Every checksum of a run is taken of the content. -/
def IsSealed (bundle : Bundle) : Prop :=
  ∀ artifact ∈ bundle.artifacts, artifact.sum = Digest.checksum artifact.content

/-- Where two runs have different contents under one key, the checksums differ too. -/
def TellsApart (before after : Bundle) : Prop :=
  ∀ earlier ∈ before.artifacts, ∀ artifact ∈ after.artifacts, earlier.key = artifact.key →
    earlier.content ≠ artifact.content →
      Digest.checksum earlier.content ≠ Digest.checksum artifact.content

/-- A run has made no artifact of that key, or one of another content. -/
def Lacks (before : Bundle) (artifact : Artifact) : Prop :=
  artifact.key ∉ before.artifacts.map Artifact.key ∨
    ∃ earlier ∈ before.artifacts, earlier.key = artifact.key ∧ earlier.content ≠ artifact.content

instance (before : Bundle) (artifact : Artifact) : Decidable (before.Lacks artifact) :=
  inferInstanceAs (Decidable (_ ∨ _))

/-- All artifacts but the API document. -/
def modules (bundle : Bundle) : List Artifact :=
  bundle.schemas ++ bundle.migrations ++ bundle.endpoints ++ [bundle.router, bundle.types]

theorem artifacts_eq (bundle : Bundle) : bundle.artifacts = bundle.modules ++ bundle.openApi.toList := rfl

section Recorded

variable (hsealed : before.IsSealed) (hkeys : (before.artifacts.map Artifact.key).Nodup)

include hsealed hkeys

/-- The recorded checksum of a key is that of the content under this key. -/
theorem lookup_checksumMap {earlier : Artifact} (h : earlier ∈ before.artifacts) :
    before.checksumMap.lookup earlier.key = some (Digest.checksum earlier.content) := by
  have hnames : ((before.artifacts.map fun artifact => (artifact.key, artifact.sum)).map (·.1)).Nodup := by
    rw [List.map_map]
    exact hkeys
  rw [checksumMap, Keyed.ofList_of_nodup hnames, ← hsealed earlier h]
  exact lookup_of_mem hnames (List.mem_map_of_mem h)

omit hsealed hkeys in
theorem lookup_checksumMap_of_not_mem {key : String} (h : key ∉ before.artifacts.map Artifact.key) :
    before.checksumMap.lookup key = none := by
  apply lookup_eq_none_of_not_mem
  rw [checksumMap, Keyed.mem_names_ofList, List.map_map]
  exact h

/-- An artifact is reported if its key is new, or the checksum under it is. -/
theorem hasChanged_iff (artifact : Artifact) :
    hasChanged artifact.content (before.checksumMap.lookup artifact.key) = true ↔
      artifact.key ∉ before.artifacts.map Artifact.key ∨
        ∃ earlier ∈ before.artifacts, earlier.key = artifact.key ∧
          Digest.checksum earlier.content ≠ Digest.checksum artifact.content := by
  by_cases hkey : artifact.key ∈ before.artifacts.map Artifact.key
  · obtain ⟨earlier, hearlier, hsame⟩ := List.mem_map.mp hkey
    rw [← hsame, lookup_checksumMap hsealed hkeys hearlier, hasChanged_checksum]
    constructor
    · exact fun hne => Or.inr ⟨earlier, hearlier, rfl, hne⟩
    · rintro (hnew | ⟨other, hother, heq, hne⟩)
      · exact absurd (List.mem_map_of_mem hearlier) hnew
      · obtain rfl := List.inj_on_of_nodup_map hkeys hother hearlier heq
        exact hne
  · rw [lookup_checksumMap_of_not_mem hkey, hasChanged_none]
    exact iff_of_true rfl (Or.inl hkey)

theorem hasChanged_iff_lacks (hapart : before.TellsApart after) {artifact : Artifact}
    (h : artifact ∈ after.artifacts) :
    hasChanged artifact.content (before.checksumMap.lookup artifact.key) = true ↔
      before.Lacks artifact := by
  rw [hasChanged_iff hsealed hkeys, Lacks]
  refine or_congr_right ⟨?_, ?_⟩
  · rintro ⟨earlier, hearlier, hkey, hne⟩
    exact ⟨earlier, hearlier, hkey, fun hcontent => hne (congrArg Digest.checksum hcontent)⟩
  · rintro ⟨earlier, hearlier, hkey, hne⟩
    exact ⟨earlier, hearlier, hkey, hapart earlier hearlier artifact h hkey hne⟩

/-- What the earlier run has under the same key with the same content is not reported, whatever the
checksums are. -/
theorem hasChanged_of_mem {earlier artifact : Artifact} (h : earlier ∈ before.artifacts)
    (hkey : earlier.key = artifact.key) (hcontent : earlier.content = artifact.content) :
    hasChanged artifact.content (before.checksumMap.lookup artifact.key) = false := by
  have hsame := hasChanged_checksum artifact.content artifact.content
  rw [← hkey, lookup_checksumMap hsealed hkeys h, hcontent, ← Bool.not_eq_true, hsame]
  exact fun hne => hne rfl

end Recorded

end Bundle

/-! ### Runs -/

theorem Artifact.sum_of_none {artifact : Artifact} (h : artifact.checksum = none) :
    artifact.sum = Digest.checksum artifact.content := by
  rw [sum, h]
  rfl

theorem Schema.artifact_checksum {resource : ResourceSpec} {made : Artifact}
    (h : artifact resource = .ok made) : made.checksum = none := by
  obtain ⟨mappings, -, h⟩ := Outcome.bind_eq_ok.mp h
  obtain ⟨content, -, h⟩ := Outcome.bind_eq_ok.mp h
  unfold named at h
  split at h
  · cases h
  · rw [← Except.ok.inj h]

/-- What a script is known by, and what it says. -/
def Artifact.keyed (artifact : Artifact) : String × String := (artifact.key, artifact.content)

namespace Migration

variable {kind : MigrationKind} {content : ResourceSpec × Sql.Table → Except GenerationFault String}

theorem sum_artifactOf (name text : String) (kind : MigrationKind) (resource : Option String) :
    (artifactOf name text kind resource).sum = Digest.checksum text := by
  rw [Artifact.sum, artifactOf, someText_of_ne (Digest.checksum_ne_empty text), Option.getD_some]

/-- The script of one kind for a resource and its table, under no token. -/
def keyedScript (kind : MigrationKind) (content : ResourceSpec × Sql.Table → Except GenerationFault String)
    (pair : ResourceSpec × Sql.Table) : String × String :=
  (artifactOf "" ((content pair).toOption.getD "") kind (some pair.1.name)).keyed

/-- The token is neither in the key nor in the content. -/
theorem IsScript.keyed {entry : (ResourceSpec × Sql.Table) × String} {artifact : Artifact}
    (h : IsScript kind content entry artifact) : artifact.keyed = keyedScript kind content entry.1 := by
  obtain ⟨text, htext, rfl⟩ := h
  rw [keyedScript, htext]
  rfl

theorem map_keyed_of_isScript {pairs : List (ResourceSpec × Sql.Table)} {tokens : List String}
    {artifacts : List Artifact} (hlength : tokens.length = pairs.length)
    (h : List.Forall₂ (IsScript kind content) (pairs.zip tokens) artifacts) :
    artifacts.map Artifact.keyed = pairs.map (keyedScript kind content) := by
  calc artifacts.map Artifact.keyed
      = (pairs.zip tokens).map fun entry => keyedScript kind content entry.1 :=
        map_eq_map_of_forall₂ h fun _ _ _ hscript => hscript.keyed
    _ = ((pairs.zip tokens).map Prod.fst).map (keyedScript kind content) := by
        rw [List.map_map]
        rfl
    _ = pairs.map (keyedScript kind content) := by
        rw [List.map_fst_zip (le_of_eq hlength.symm)]

/-- The scripts of a configuration, apart from their tokens. -/
def keyedScripts (config : ApiConfig) (tables : List Sql.Table) : List (String × String) :=
  (resourceTables config tables).map (keyedScript .createTable fun pair => tableScript tables pair.2) ++
    (indexedTables config tables).map (keyedScript .createIndexes fun pair => indexScript pair.1 pair.2)

theorem run_migrations_keyed {config : ApiConfig} {before after : Sequence} {artifacts : List Artifact}
    (h : run (migrations config) before = (.ok artifacts, after)) :
    ∃ tables, buildTables true config.resources = .ok tables ∧
      artifacts.map Artifact.keyed = keyedScripts config tables := by
  obtain ⟨tables, creations, indexes, tokens, tokens', between, hbuilt, -, -, hlength, hlength', hissued,
    hissued', rfl⟩ := run_migrations_eq_ok h
  refine ⟨tables, hbuilt, ?_⟩
  rw [List.map_append, map_keyed_of_isScript hlength hissued, map_keyed_of_isScript hlength' hissued',
    keyedScripts]

theorem sum_of_run_migrations {config : ApiConfig} {before after : Sequence} {artifacts : List Artifact}
    (h : run (migrations config) before = (.ok artifacts, after)) :
    ∀ artifact ∈ artifacts, artifact.sum = Digest.checksum artifact.content := by
  obtain ⟨tables, creations, indexes, tokens, tokens', between, -, -, -, -, -, hissued, hissued', rfl⟩ :=
    run_migrations_eq_ok h
  have hscript : ∀ (kind : MigrationKind) content entries scripts,
      List.Forall₂ (IsScript kind content) entries scripts →
        ∀ artifact ∈ scripts, artifact.sum = Digest.checksum artifact.content := by
    intro kind content entries scripts hall artifact hartifact
    obtain ⟨entry, -, text, -, rfl⟩ := exists_of_mem_forall₂ hall.flip hartifact
    exact sum_artifactOf _ text kind _
  rw [List.forall_mem_append]
  exact ⟨hscript _ _ _ _ hissued, hscript _ _ _ _ hissued'⟩

end Migration

section Run

variable {config config' : ApiConfig} {options options' : Bundle.Options}
  {start start' stop stop' : Sequence} {before after : Bundle}

theorem Generated.isSealed (h : Generated config options start before stop) : before.IsSealed := by
  unfold Bundle.IsSealed Bundle.artifacts
  simp only [List.forall_mem_append, List.forall_mem_cons]
  have hmigrations := Migration.sum_of_run_migrations h.migrations
  refine ⟨⟨⟨⟨?_, hmigrations⟩, ?_⟩, ?_, ?_, List.forall_mem_nil _⟩, ?_⟩
  · intro artifact hartifact
    obtain ⟨resource, -, hmade⟩ := Outcome.exists_of_mem_results h.schemas hartifact
    exact Artifact.sum_of_none (Schema.artifact_checksum hmade)
  · intro artifact hartifact
    rw [h.endpoints, Endpoint.artifacts] at hartifact
    obtain ⟨resource, -, hmem⟩ := List.mem_flatMap.mp hartifact
    obtain ⟨operation, -, rfl⟩ := List.mem_map.mp hmem
    exact Artifact.sum_of_none rfl
  · rw [h.router]
    exact Artifact.sum_of_none rfl
  · rw [h.types]
    exact Artifact.sum_of_none rfl
  · intro artifact hartifact
    obtain ⟨document, -, -, rfl⟩ :=
      OpenApi.artifact_eq_ok_iff.mp (h.openApi artifact (Option.mem_toList.mp hartifact))
    exact Artifact.sum_of_none rfl

/-- There is a document exactly if one is asked for. -/
theorem isSome_openApi_of_run
    (h : run (Bundle.generate config options) start = (.ok before, stop)) :
    before.openApi.isSome = options.includeOpenApi := by
  unfold Bundle.generate at h
  obtain ⟨schemas, first, -, h⟩ := run_bind_eq_ok.mp h
  obtain ⟨migrations, second, -, h⟩ := run_bind_eq_ok.mp h
  cases hasked : options.includeOpenApi with
  | true =>
      rw [hasked] at h
      obtain ⟨made, last, hmade, hpure⟩ := run_bind_eq_ok.mp h
      rw [run_map_ofExcept] at hmade
      obtain ⟨document, -, rfl⟩ := Outcome.map_eq_ok.mp (Prod.mk.inj hmade).1
      rw [← Except.ok.inj (Prod.mk.inj hpure).1]
      rfl
  | false =>
      rw [hasked] at h
      rw [← Except.ok.inj (Prod.mk.inj h).1]
      rfl

/-- Whatever options two runs of one configuration have, apart from the document they know the same
artifacts by the same keys, in the same order. -/
theorem map_keyed_modules (h : Generated config options start before stop)
    (h' : Generated config options' start' after stop') :
    before.modules.map Artifact.keyed = after.modules.map Artifact.keyed := by
  have hschemas : before.schemas = after.schemas := Except.ok.inj (h.schemas.symm.trans h'.schemas)
  have hmigrations : before.migrations.map Artifact.keyed = after.migrations.map Artifact.keyed := by
    obtain ⟨tables, hbuilt, hkeyed⟩ := Migration.run_migrations_keyed h.migrations
    obtain ⟨tables', hbuilt', hkeyed'⟩ := Migration.run_migrations_keyed h'.migrations
    obtain rfl := Except.ok.inj (hbuilt.symm.trans hbuilt')
    rw [hkeyed, hkeyed']
  have hendpoints : before.endpoints = after.endpoints := by rw [h.endpoints, h'.endpoints]
  have hrouter : before.router = after.router := by rw [h.router, h'.router, hendpoints]
  have htypes : before.types = after.types := by rw [h.types, h'.types, hschemas]
  simp only [Bundle.modules, List.map_append, hschemas, hmigrations, hendpoints, hrouter, htypes]

/-- With the same options the document is the same too. -/
theorem map_keyed_artifacts (h : run (Bundle.generate config options) start = (.ok before, stop))
    (h' : run (Bundle.generate config options) start' = (.ok after, stop')) :
    before.artifacts.map Artifact.keyed = after.artifacts.map Artifact.keyed := by
  have hmade := generated_of_run h
  have hmade' := generated_of_run h'
  have hasked := (isSome_openApi_of_run h).trans (isSome_openApi_of_run h').symm
  have hopenApi : before.openApi = after.openApi := by
    apply Option.ext
    intro document
    constructor
    · intro hdocument
      obtain ⟨other, hother⟩ := Option.isSome_iff_exists.mp (hasked ▸ Option.isSome_of_mem hdocument)
      have hsame := (hmade.openApi document hdocument).symm.trans (hmade'.openApi other hother)
      rw [hother, Except.ok.inj hsame]
    · intro hdocument
      obtain ⟨other, hother⟩ := Option.isSome_iff_exists.mp (hasked ▸ Option.isSome_of_mem hdocument)
      have hsame := (hmade.openApi other hother).symm.trans (hmade'.openApi document hdocument)
      rw [hother, Except.ok.inj hsame]
  rw [Bundle.artifacts_eq, Bundle.artifacts_eq, List.map_append, List.map_append,
    map_keyed_modules hmade hmade', hopenApi]

theorem run_generate_of_build (h : run (build config options) start = (.ok before, stop)) :
    run (Bundle.generate config options) start = (.ok before, stop) := by
  rw [run_build_of_accepted (run_build_eq_ok h).1, run_lift] at h
  obtain ⟨houtcome, hstop⟩ := Prod.mk.inj h
  rw [← hstop, ← Outcome.mapError_eq_ok.mp houtcome]

/-- **Change detection is exact.** Take a run whose artifacts have different keys. Of any artifacts, those
are reported against its checksums, in order, that it has no artifact of the same key for, or one of another
content, as long as no two different contents under one key share a checksum. A second run of the same
configuration with the same options reports nothing, whatever tokens it takes. -/
theorem changed_eq_filter_lacks (h : run (build config options) start = (.ok before, stop))
    (hkeys : (before.artifacts.map Artifact.key).Nodup) :
    (∀ after : Bundle, before.TellsApart after →
        after.changed before.checksumMap =
          after.artifacts.filter fun artifact => before.Lacks artifact) ∧
      ∀ start' after stop', run (build config options) start' = (.ok after, stop') →
        after.changed before.checksumMap = [] := by
  have hsealed := (run_build_eq_ok h).2.isSealed
  constructor
  · intro after hapart
    rw [Bundle.changed]
    apply List.filter_congr
    intro artifact hartifact
    rw [Bool.eq_iff_iff, Bundle.hasChanged_iff_lacks hsealed hkeys hapart hartifact,
      decide_eq_true_iff]
  · intro start' after stop' h'
    have hkeyed := map_keyed_artifacts (run_generate_of_build h) (run_generate_of_build h')
    rw [Bundle.changed, List.filter_eq_nil_iff]
    intro artifact hartifact
    have hmem : artifact.keyed ∈ before.artifacts.map Artifact.keyed :=
      hkeyed ▸ List.mem_map_of_mem hartifact
    obtain ⟨earlier, hearlier, hsame⟩ := List.mem_map.mp hmem
    obtain ⟨hkey, hcontent⟩ := Prod.mk.inj hsame
    rw [Bundle.hasChanged_of_mem hsealed hkeys hearlier hkey hcontent]
    exact Bool.false_ne_true

/-- A run that adds a document to what was there has nothing of another content. -/
theorem tellsApart_of_modules (hnone : before.openApi = none)
    (hmodules : before.modules.map Artifact.keyed = after.modules.map Artifact.keyed)
    (hkeys : (after.artifacts.map Artifact.key).Nodup) : before.TellsApart after := by
  intro earlier hearlier artifact hartifact hkey hne
  rw [Bundle.artifacts_eq, hnone, Option.toList_none, List.append_nil] at hearlier
  have hmem : earlier.keyed ∈ after.modules.map Artifact.keyed := hmodules ▸ List.mem_map_of_mem hearlier
  obtain ⟨other, hother, hsame⟩ := List.mem_map.mp hmem
  obtain ⟨hkey', hcontent⟩ := Prod.mk.inj hsame
  have heq := List.inj_on_of_nodup_map hkeys (List.mem_append_left _ hother) hartifact
    (hkey'.trans hkey)
  exact absurd (heq ▸ hcontent).symm hne

/-- A blog that is built again with a document, and one that is built again as it was. -/
theorem changed_blog :
    ∃ before after again stop stop' stop'',
      run (build Blog.config { includeOpenApi := false }) { stamp := "202401010000" } =
        (.ok before, stop) ∧
      run (build Blog.config {}) { stamp := "202502020000", next := 7 } = (.ok after, stop') ∧
      run (build Blog.config { includeOpenApi := false }) { stamp := "202502020000", next := -3 } =
        (.ok again, stop'') ∧
      (before.artifacts.map Artifact.key).Nodup ∧ before.TellsApart after ∧
      (after.changed before.checksumMap =
        after.artifacts.filter fun artifact => before.Lacks artifact) ∧
      again.changed before.checksumMap = [] := by
  obtain ⟨before, stop, hrun⟩ := exists_of_isOk
    (show (run (build Blog.config { includeOpenApi := false })
      { stamp := "202401010000" }).1.isOk = true by decide +kernel)
  obtain ⟨after, stop', hrun'⟩ := exists_of_isOk
    (show (run (build Blog.config {}) { stamp := "202502020000", next := 7 }).1.isOk = true by
      decide +kernel)
  obtain ⟨again, stop'', hrun''⟩ := exists_of_isOk
    (show (run (build Blog.config { includeOpenApi := false })
      { stamp := "202502020000", next := -3 }).1.isOk = true by decide +kernel)
  have hmade := (run_build_eq_ok hrun).2
  have hmade' := (run_build_eq_ok hrun').2
  have hmodules : Blog.config.ModulesApart := by decide +kernel
  have hkeys := (hmade.keys_nodup_iff Blog.accepted).mpr hmodules
  have hnone : before.openApi = none := by
    have hasked := isSome_openApi_of_run (run_generate_of_build hrun)
    exact Option.isNone_iff_eq_none.mp (Option.isSome_eq_false_iff.mp hasked)
  have hapart := tellsApart_of_modules hnone (map_keyed_modules hmade hmade')
    ((hmade'.keys_nodup_iff Blog.accepted).mpr hmodules)
  obtain ⟨hlacks, hsame⟩ := changed_eq_filter_lacks hrun hkeys
  exact ⟨before, after, again, stop, stop', stop'', hrun, hrun', hrun'', hkeys, hapart,
    hlacks after hapart, hsame _ again stop'' hrun''⟩

end Run

end ApiScaffold
