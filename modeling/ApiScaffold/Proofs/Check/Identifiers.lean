import Mathlib
import ApiScaffold.Proofs.Check.Names
import ApiScaffold.Proofs.Check.Topic
import ApiScaffold.Proofs.Naming.Identifier

/-! Which names pass the checks. A name passes if it is a proper one, and also if it is formed like a name
and a line feed stands behind it; every other name is reported, and no proper one is. -/

namespace ApiScaffold

namespace Naming

/-- A letter of ASCII. -/
def IsLetter (c : Char) : Prop := 'a' ≤ c ∧ c ≤ 'z' ∨ 'A' ≤ c ∧ c ≤ 'Z'

/-- A digit of ASCII. -/
def IsDigit (c : Char) : Prop := '0' ≤ c ∧ c ≤ '9'

/-- A text formed like a name: a letter or underscore, and from there to its end letters, digits and
underscores. -/
def IsFormed (name : String) : Prop :=
  ∃ first rest, name.toList = first :: rest ∧ (IsLetter first ∨ first = '_') ∧
    ∀ c ∈ rest, IsLetter c ∨ IsDigit c ∨ c = '_'

/-- A name that code can use: formed like one, and no keyword. -/
structure IsProper (name : String) : Prop where
  formed : IsFormed name
  free : name ∉ keywords

/-- A proper name that is not private. -/
structure IsProperField (name : String) : Prop extends IsProper name where
  shown : name.toList.head? ≠ some '_'

/-- A text formed like a name, with a line feed behind it. -/
def IsFed (name : String) : Prop := ∃ stem, IsFormed stem ∧ name = stem ++ "\n"

theorem isNameStart_iff {c : Char} : isNameStart c = true ↔ IsLetter c ∨ c = '_' := by
  simp only [isNameStart, Char.isAlpha, Char.isUpper, Char.isLower, IsLetter, Char.le_def,
    Bool.or_eq_true, Bool.and_eq_true, decide_eq_true_eq, beq_iff_eq, ge_iff_le]
  rw [or_comm (a := _ ∧ _)]

theorem isNameChar_iff {c : Char} : isNameChar c = true ↔ IsLetter c ∨ IsDigit c ∨ c = '_' := by
  rw [← or_assoc, or_right_comm, ← isNameStart_iff]
  simp only [isNameChar, isNameStart, Char.isAlphanum, Char.isDigit, IsDigit, Char.le_def,
    Bool.or_eq_true, Bool.and_eq_true, decide_eq_true_eq, ge_iff_le]
  rw [or_right_comm]

theorem isFormed_iff {name : String} :
    IsFormed name ↔ (match name.toList with
      | [] => false
      | first :: rest => isNameStart first && rest.all isNameChar) = true := by
  cases hchars : name.toList with
  | nil => simp [IsFormed, hchars]
  | cons first rest =>
      simp only [IsFormed, hchars, List.cons.injEq, Bool.and_eq_true, List.all_eq_true,
        isNameStart_iff, isNameChar_iff]
      constructor
      · rintro ⟨first', rest', ⟨rfl, rfl⟩, hformed⟩
        exact hformed
      · intro hformed
        exact ⟨first, rest, ⟨rfl, rfl⟩, hformed⟩

theorem IsFormed.feed_not_mem {name : String} (h : IsFormed name) : '\n' ∉ name.toList := by
  obtain ⟨first, rest, hchars, hfirst, hrest⟩ := h
  have hfeed : isNameChar '\n' = false := by decide
  rw [hchars]
  intro hmem
  have hchar : isNameChar '\n' = true := by
    rcases List.mem_cons.mp hmem with rfl | hin
    · exact isNameChar_of_isNameStart (isNameStart_iff.mpr hfirst)
    · exact isNameChar_iff.mpr (hrest '\n' hin)
  rw [hfeed] at hchar
  cases hchar

theorem dropLineFeed_append (s : List Char) : dropLineFeed (s ++ ['\n']) = s := by
  rw [dropLineFeed, List.getLast?_concat, if_pos rfl, List.dropLast_concat]

theorem isNameLike_iff {name : String} : isNameLike name = true ↔ IsFormed name ∨ IsFed name := by
  have hstem : isNameLike name = true ↔ IsFormed (String.ofList (dropLineFeed name.toList)) := by
    rw [isFormed_iff, String.toList_ofList]
    exact Iff.rfl
  rw [hstem]
  constructor
  · intro hformed
    rcases eq_dropLineFeed_or name.toList with heq | heq
    · left
      rwa [← heq, String.ofList_toList] at hformed
    · right
      refine ⟨_, hformed, ?_⟩
      rw [← String.toList_inj, String.toList_append, String.toList_ofList]
      exact heq
  · rintro (hformed | ⟨stem, hformed, rfl⟩)
    · rwa [dropLineFeed_of_not_mem hformed.feed_not_mem, String.ofList_toList]
    · have hdrop : dropLineFeed (stem ++ "\n").toList = stem.toList := by
        rw [String.toList_append]
        exact dropLineFeed_append stem.toList
      rwa [hdrop, String.ofList_toList]

/-- A line feed makes a keyword a name. -/
theorem IsFed.free {name : String} (h : IsFed name) : name ∉ keywords := by
  obtain ⟨stem, -, rfl⟩ := h
  have hfeeds : ∀ word ∈ keywords, '\n' ∉ word.toList := by decide
  intro hword
  exact hfeeds _ hword (by simp)

/-- **What counts as an identifier.** -/
theorem isIdentifier_iff {name : String} : isIdentifier name = true ↔ IsProper name ∨ IsFed name := by
  rw [isIdentifier, Bool.and_eq_true, isNameLike_iff, Bool.not_eq_true', ← Bool.not_eq_true,
    List.contains_iff_mem]
  constructor
  · rintro ⟨hformed | hfed, hfree⟩
    · exact Or.inl ⟨hformed, hfree⟩
    · exact Or.inr hfed
  · rintro (⟨hformed, hfree⟩ | hfed)
    · exact ⟨Or.inl hformed, hfree⟩
    · exact ⟨Or.inr hfed, hfed.free⟩

/-- A name that passes is proper exactly if no line feed stands at its end. -/
theorem isProper_iff_of_isIdentifier {name : String} (h : isIdentifier name = true) :
    IsProper name ↔ name.toList.getLast? ≠ some '\n' := by
  constructor
  · intro hproper hlast
    exact hproper.formed.feed_not_mem (List.mem_of_getLast? hlast)
  · intro hlast
    refine (isIdentifier_iff.mp h).resolve_right ?_
    rintro ⟨stem, -, rfl⟩
    exact hlast (by simp)

end Naming

open Naming

namespace Check

theorem isFieldName_iff {name : String} :
    isFieldName name = true ↔ (IsProper name ∨ IsFed name) ∧ name.toList.head? ≠ some '_' := by
  rw [isFieldName, Bool.and_eq_true, isIdentifier_iff, bne_iff_ne]

theorem isProperField_iff_of_isFieldName {name : String} (h : isFieldName name = true) :
    IsProperField name ↔ name.toList.getLast? ≠ some '\n' := by
  rw [isFieldName, Bool.and_eq_true, bne_iff_ne] at h
  rw [← isProper_iff_of_isIdentifier h.1]
  exact ⟨fun hfield => hfield.toIsProper, fun hproper => ⟨hproper, h.2⟩⟩

/-! ### What is reported -/

/-- Every name that does not pass is found bad, where it occurs for the first time. -/
theorem mem_resourceNamesFrom_bad (seen : List String) (tables : List (String × String))
    (names : List String) (name : String) :
    Finding.badResourceName name ∈ resourceNamesFrom seen tables names ↔
      name ∈ names ∧ name ∉ seen ∧ isIdentifier name = false := by
  induction names generalizing seen tables with
  | nil => simp [resourceNamesFrom]
  | cons first rest ih =>
      have hreserved : ∀ table : String,
          Finding.badResourceName name ∉
            (if isReserved table then [Finding.reservedTable first table] else []) := by
        intro table
        split <;> simp
      rw [resourceNamesFrom, List.mem_cons (a := name)]
      by_cases hseen : first ∈ seen
      · rw [if_pos (List.contains_iff_mem.mpr hseen), List.mem_cons, ih]
        grind
      · rw [if_neg (mt List.contains_iff_mem.mp hseen)]
        cases hidentifier : isIdentifier first with
        | false =>
            rw [Bool.not_false, if_pos rfl, List.mem_cons, ih, Finding.badResourceName.injEq]
            grind
        | true =>
            rw [Bool.not_true, if_neg Bool.false_ne_true]
            dsimp only
            -- A name that passes is not the one that is looked for, whoever has its table.
            have hne : isIdentifier name = false → name ≠ first := by
              rintro hbad rfl
              rw [hidentifier] at hbad
              cases hbad
            split
            · rw [List.cons_append, List.mem_cons, List.mem_append, ih]
              grind
            · rw [List.mem_append, ih]
              grind

theorem mem_resourceNames_bad {config : ApiConfig} {name : String} :
    Finding.badResourceName name ∈ resourceNames config ↔
      name ∈ config.resourceNames ∧ ¬(IsProper name ∨ IsFed name) := by
  rw [resourceNames, mem_resourceNamesFrom_bad, ← isIdentifier_iff, Bool.not_eq_true]
  simp

/-- The same of the fields of a resource. -/
theorem mem_fieldNamesFrom_bad (resource : String) (seen : List String) (fields : List FieldSpec)
    (place : Place) :
    Finding.badFieldName place ∈ fieldNamesFrom resource seen fields ↔
      place.resource = resource ∧ place.field ∈ fields.map FieldSpec.name ∧ place.field ∉ seen ∧
        isFieldName place.field = false := by
  obtain ⟨owner, name⟩ := place
  induction fields generalizing seen with
  | nil => simp [fieldNamesFrom]
  | cons first rest ih =>
      have hcollisions : Finding.badFieldName ⟨owner, name⟩ ∉ collisions ⟨resource, first.name⟩ first := by
        rw [collisions]
        split <;> split <;> split <;> simp
      rw [fieldNamesFrom, List.map_cons, List.mem_cons (a := name)]
      by_cases hseen : first.name ∈ seen
      · rw [if_pos (List.contains_iff_mem.mpr hseen), List.mem_cons, ih]
        grind
      · rw [if_neg (mt List.contains_iff_mem.mp hseen)]
        cases hname : isFieldName first.name with
        | false =>
            rw [Bool.not_false, if_pos rfl, List.mem_cons, ih, Finding.badFieldName.injEq,
              Place.mk.injEq]
            grind
        | true =>
            rw [Bool.not_true, if_neg Bool.false_ne_true, List.mem_append, ih]
            grind

theorem mem_fieldNames_bad {config : ApiConfig} {place : Place} :
    Finding.badFieldName place ∈ fieldNames config ↔
      (∃ resource ∈ config.resources, place.resource = resource.name ∧ place.field ∈ resource.fieldNames) ∧
        isFieldName place.field = false := by
  simp only [fieldNames, List.mem_flatMap, mem_fieldNamesFrom_bad, ResourceSpec.fieldNames,
    List.not_mem_nil, not_false_eq_true, true_and]
  constructor
  · rintro ⟨resource, hresource, hname, hfield, hbad⟩
    exact ⟨⟨resource, hresource, hname, hfield⟩, hbad⟩
  · rintro ⟨⟨resource, hresource, hname, hfield⟩, hbad⟩
    exact ⟨resource, hresource, hname, hfield, hbad⟩

/-! ### Issues of names -/

theorem eq_badResourceName {finding : Finding} {name : String} (hcode : finding.code = "INVALID_RESOURCE_NAME")
    (hcontext : finding.context = [("resource", .text name)]) : finding = .badResourceName name := by
  cases finding with
  | badResourceName other => simpa [Finding.context] using hcontext
  | relation place text flaw => cases flaw <;> simp [Finding.code, RelationFlaw.code] at hcode
  | _ => simp [Finding.code] at hcode

theorem eq_badFieldName {finding : Finding} {place : Place} (hcode : finding.code = "INVALID_FIELD_NAME")
    (hcontext : finding.context = Finding.placeContext place) : finding = .badFieldName place := by
  cases finding with
  | badFieldName other => rw [placeContext_inj hcontext]
  | relation place text flaw => cases flaw <;> simp [Finding.code, RelationFlaw.code] at hcode
  | _ => simp [Finding.code] at hcode

end Check

/-! ### All names -/

/-- What reports say of bad names: those that do not pass are reported, wherever they occur. -/
structure ApiConfig.NamesReported (config : ApiConfig) (report : Report) : Prop where
  resources : ∀ name, report.Shows "INVALID_RESOURCE_NAME" [("resource", .text name)] ↔
    name ∈ config.resourceNames ∧ ¬(IsProper name ∨ IsFed name)
  fields : ∀ place, report.Shows "INVALID_FIELD_NAME" (Check.Finding.placeContext place) ↔
    (∃ resource ∈ config.resources, place.resource = resource.name ∧ place.field ∈ resource.fieldNames) ∧
      ¬((IsProper place.field ∨ IsFed place.field) ∧ place.field.toList.head? ≠ some '_')

/-- All names of a configuration are proper. -/
def ApiConfig.NamesProper (config : ApiConfig) : Prop :=
  ∀ resource ∈ config.resources, IsProper resource.name ∧
    ∀ name ∈ resource.fieldNames, IsProperField name

/-- No name of a configuration has a line feed at its end. -/
def ApiConfig.NamesUnfed (config : ApiConfig) : Prop :=
  ∀ resource ∈ config.resources, resource.name.toList.getLast? ≠ some '\n' ∧
    ∀ name ∈ resource.fieldNames, name.toList.getLast? ≠ some '\n'

instance (config : ApiConfig) : Decidable config.NamesUnfed :=
  inferInstanceAs (Decidable (∀ resource ∈ config.resources, _ ∧ ∀ name ∈ resource.fieldNames, _))

variable {config : ApiConfig}

theorem ApiConfig.namesReported {report : Report} (h : config.report = .ok report) :
    config.NamesReported report where
  resources name := by
    rw [← Check.mem_resourceNames_bad]
    exact ApiConfig.report_shows_of_unique h (.badResourceName name) rfl fun _ => Check.eq_badResourceName
  fields place := by
    rw [← Check.isFieldName_iff, Bool.not_eq_true, ← Check.mem_fieldNames_bad]
    exact ApiConfig.report_shows_of_unique h (.badFieldName place) rfl fun _ => Check.eq_badFieldName

theorem ApiConfig.Accepted.namesProper_iff (h : config.Accepted) :
    config.NamesProper ↔ config.NamesUnfed := by
  refine forall₂_congr fun resource hresource => and_congr ?_ (forall₂_congr fun name hname => ?_)
  · exact isProper_iff_of_isIdentifier
      (h.admitted.identifiers resource.name (List.mem_map_of_mem hresource))
  · exact Check.isProperField_iff_of_isFieldName (h.isFieldName hresource hname)

/-- **Names are judged by their form.** The names of an accepted configuration are all proper exactly if
none of them has a line feed at its end. Of any configuration exactly those names are reported that are
not formed like a name, with or without a line feed behind them, that are a keyword, or that are a private
name of a field; in particular no proper name ever is. -/
theorem names_proper_iff (config : ApiConfig) :
    (config.Accepted → (config.NamesProper ↔ config.NamesUnfed)) ∧
      (∀ name, IsProper name → .badResourceName name ∉ Check.resourceNames config) ∧
      (∀ place : Check.Place, IsProperField place.field → .badFieldName place ∉ Check.fieldNames config) ∧
      ∀ report, config.report = .ok report → config.NamesReported report := by
  refine ⟨fun h => h.namesProper_iff, fun name hproper hmem => ?_, fun place hproper hmem => ?_,
    fun report hreport => ApiConfig.namesReported hreport⟩
  · exact (Check.mem_resourceNames_bad.mp hmem).2 (Or.inl hproper)
  · have hpasses := Check.isFieldName_iff.mpr ⟨Or.inl hproper.toIsProper, hproper.shown⟩
    rw [(Check.mem_fieldNames_bad.mp hmem).2] at hpasses
    cases hpasses

/-- All names of a blog are proper, and nothing is reported of them. -/
theorem names_proper_blog :
    Blog.config.Accepted ∧ Blog.config.NamesProper ∧
      ∀ report, Blog.config.report = .ok report →
        ¬report.Shows "INVALID_RESOURCE_NAME" [("resource", .text "Post")] := by
  have hunfed : Blog.config.NamesUnfed := by decide
  obtain ⟨hproper, -, -, hreported⟩ := names_proper_iff Blog.config
  have hall := (hproper Blog.accepted).mpr hunfed
  refine ⟨Blog.accepted, hall, fun report hreport hshown => ?_⟩
  have hpost : Blog.post ∈ Blog.config.resources := by decide
  exact (((hreported report hreport).resources "Post").mp hshown).2 (Or.inl (hall Blog.post hpost).1)

/-- A blog with a field that is named by a keyword and a line feed. -/
def keywordFed : ApiConfig :=
  { name := "Blog", resources := [{ name := "Post", fields := [{ name := "class\n", type := .string }] }] }

/-- The name of the field is no proper one, but it passes. -/
theorem names_improper_keywordFed : keywordFed.Accepted ∧ ¬keywordFed.NamesProper := by
  have haccepted : keywordFed.Accepted := by decide +kernel
  have hunfed : ¬keywordFed.NamesUnfed := by decide
  exact ⟨haccepted, fun hproper => hunfed (haccepted.namesProper_iff.mp hproper)⟩

end ApiScaffold
