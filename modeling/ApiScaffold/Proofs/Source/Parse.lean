import Mathlib
import ApiScaffold.Proofs.Check.Finished
import ApiScaffold.Proofs.Yaml.Loading
import ApiScaffold.Proofs.Yaml.Reading
import ApiScaffold.Source.Parse

/-! Parsing comes to an outcome. Whatever is wrong with a text is reported, as long as its tokens end in no
fault of content, its scalars denote values and the integers of the configuration that it describes are not
too large. -/

namespace ApiScaffold

namespace Yaml

/-- The tokens end in no fault of content, and every scalar of their document denotes a value. -/
structure TokenStream.Legible (stream : TokenStream) : Prop where
  tokens : ∀ fault ∈ stream.fault, fault.IsReported
  scalars : ∀ document ∈ stream.toGraph?.toOption.join, document.2.Readable

instance (stream : TokenStream) : Decidable stream.Legible :=
  decidable_of_iff (_ ∧ _) ⟨fun ⟨tokens, scalars⟩ => ⟨tokens, scalars⟩,
    fun ⟨tokens, scalars⟩ => ⟨tokens, scalars⟩⟩

theorem TokenStream.Legible.yields_document {stream : TokenStream} (h : stream.Legible) :
    Yields (fun _ => True) (do
      match ← stream.toGraph? with
      | none => return .null
      | some (root, graph) => graph.load root) := by
  have hgraph := TokenStream.yields_toGraph h.tokens
  have hscalars := h.scalars
  cases hread : stream.toGraph? with
  | error fault =>
      rw [hread] at hgraph
      exact hgraph
  | ok document =>
      cases document with
      | none => trivial
      | some document =>
          rw [hread] at hscalars
          exact Graph.yields_load (hscalars document rfl) document.1

theorem reported_unacceptable {codes : List Nat} {fault : Fault}
    (h : unacceptable? codes = some fault) : fault.IsReported := by
  rw [unacceptable?] at h
  split at h
  · cases h
  · obtain rfl := Option.some.inj h
    trivial

end Yaml

namespace Source

/-- The tokens of a text and the scalars in it are free of faults of content. -/
def Legible (text : String) : Prop := (Yaml.tokenize text.toList).Legible

instance (text : String) : Decidable (Legible text) :=
  inferInstanceAs (Decidable (Yaml.tokenize text.toList).Legible)

/-- The configuration that a text describes. -/
def described? (text : String) : Option ApiConfig :=
  (Yaml.load text).toOption.bind fun v => (configOf v).toOption

/-- A legible text is loaded, or its fault is reported. -/
theorem Legible.yields_load {text : String} (h : Legible text) :
    Yaml.Yields (fun _ => True) (Yaml.load text) := by
  rw [Yaml.load]
  split
  · exact Yaml.reported_unacceptable ‹_›
  · rw [Legible] at h
    -- The tokens of a text that is not known must not be computed.
    generalize Yaml.tokenize text.toList = stream at h
    exact h.yields_document

theorem exists_parse_iff {text : String} (h : Legible text) :
    (∃ parsed, parse text = .ok parsed) ↔ ∀ config ∈ described? text, config.Checkable := by
  have hload := h.yields_load
  rw [parse, described?]
  cases hloaded : Yaml.load text with
  | error fault =>
      rw [hloaded] at hload
      refine iff_of_true ?_ (fun _ h => nomatch h)
      cases fault with
      | content fault => cases hload
      | badCharacter code position => exact ⟨_, rfl⟩
      | marked fault => exact ⟨_, rfl⟩
  | ok v =>
      have hdocument : (∃ parsed, parsedDocument (Digest.checksum text) v = .ok parsed) ↔
          ∀ config, configOf v = .ok config → config.Checkable := by
        rw [parsedDocument]
        cases configOf v with
        | error report => exact iff_of_true ⟨_, rfl⟩ (fun _ h => nomatch h)
        | ok config =>
            simp only [Except.ok.injEq, forall_eq', ← ApiConfig.exists_report_iff]
            cases config.report <;> simp
      have hdescribed : ∀ config, config ∈ (configOf v).toOption ↔ configOf v = .ok config := by
        intro config
        cases configOf v <;> simp [Except.toOption]
      rw [hdocument]
      exact forall_congr' fun config => imp_congr_left (hdescribed config).symm

/-- **Parsing comes to an outcome**, unless an integer is too large: the checks of a configuration are
finished exactly if it is checkable, and a legible text is parsed exactly if the configuration that it
describes is, whatever else is wrong with them. -/
theorem parse_finished (config : ApiConfig) (text : String) :
    ((∃ report, config.report = .ok report) ↔ config.Checkable) ∧
      (Legible text →
        ((∃ parsed, parse text = .ok parsed) ↔ ∀ config ∈ described? text, config.Checkable)) :=
  ⟨ApiConfig.exists_report_iff, exists_parse_iff⟩

/-- A configuration of one field with an upper bound. -/
def counter (bound : Int) : ApiConfig where
  name := "A"
  resources := [{ name := "B", fields := [{ name := "c", type := .integer, upper := some (.int bound) }] }]

theorem parse_finished_counter :
    (∃ report, (counter (10 ^ 308)).report = .ok report) ∧
      ∃ parsed, parse "{name: A, resources: [{name: B, fields: [{name: c, type: integer, max: 5}]}]}" =
        .ok parsed := by
  obtain ⟨hreport, hparse⟩ := parse_finished (counter (10 ^ 308))
    "{name: A, resources: [{name: B, fields: [{name: c, type: integer, max: 5}]}]}"
  exact ⟨hreport.mpr (by decide +kernel), (hparse (by decide +kernel)).mpr (by decide +kernel)⟩

/-- A bound beyond the doubles stops the checks, and a day that no calendar has stops the reading. -/
theorem parse_unfinished_counter :
    (¬ ∃ report, (counter (10 ^ 400)).report = .ok report) ∧
      ¬ ∃ parsed, parse "{name: A, version: 2024-13-45, resources: []}" = .ok parsed := by
  have hstops : (parse "{name: A, version: 2024-13-45, resources: []}").toBool = false := by
    decide +kernel
  refine ⟨fun hfinished => absurd (ApiConfig.exists_report_iff.mp hfinished) (by decide +kernel), ?_⟩
  rintro ⟨parsed, hparsed⟩
  rw [hparsed] at hstops
  cases hstops

end Source

end ApiScaffold
