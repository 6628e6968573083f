import Mathlib
import ApiScaffold.Naming.Identifier
import ApiScaffold.Naming.Resource
import ApiScaffold.Proofs.Text.Lines

/-! Characters of identifiers: letters, digits and underscores, and perhaps a line feed at the end. Names
in snake case have no others. -/

namespace ApiScaffold.Naming

theorem eq_dropLineFeed_or (s : List Char) : s = dropLineFeed s ∨ s = dropLineFeed s ++ ['\n'] := by
  rw [dropLineFeed]
  split
  · rename_i hlast
    have hne : s ≠ [] := by
      rintro rfl
      cases hlast
    rw [List.getLast?_eq_some_getLast hne] at hlast
    right
    rw [← Option.some.inj hlast, List.dropLast_append_getLast hne]
  · exact Or.inl rfl

theorem dropLineFeed_of_not_mem {s : List Char} (h : '\n' ∉ s) : dropLineFeed s = s := by
  rw [dropLineFeed, if_neg fun hlast => h (List.mem_of_getLast? hlast)]

theorem mem_dropLineFeed {s : List Char} {c : Char} (h : c ∈ s) : c ∈ dropLineFeed s ∨ c = '\n' := by
  rcases eq_dropLineFeed_or s with heq | heq
  · exact Or.inl (heq ▸ h)
  · rw [heq] at h
    exact (List.mem_append.mp h).imp_right List.mem_singleton.mp

/-- The codes of letters, digits and underscores. -/
theorem toNat_of_isNameChar {c : Char} (h : isNameChar c = true) :
    0x30 ≤ c.toNat ∧ c.toNat ≤ 0x7A := by
  simp only [isNameChar, Char.isAlphanum, Char.isAlpha, Char.isUpper, Char.isLower, Char.isDigit,
    Bool.or_eq_true, Bool.and_eq_true, decide_eq_true_eq, beq_iff_eq, ge_iff_le,
    UInt32.le_iff_toNat_le, Char.toNat_val, Char.reduceToNat] at h
  rcases h with ((hupper | hlower) | hdigit) | rfl
  · omega
  · omega
  · omega
  · decide

/-- Letters, digits and underscores can be put between quotes as they are. -/
theorem isOrdinary_of_isNameChar {c : Char} (h : isNameChar c = true) : Text.isOrdinary c = true := by
  have hcode := toNat_of_isNameChar h
  have hquote : c ≠ '"' := by
    rintro rfl
    exact absurd hcode.1 (by decide)
  have hslash : c ≠ '\\' := by
    rintro rfl
    exact absurd h (by decide)
  simp only [Text.isOrdinary, Bool.and_eq_true, decide_eq_true_eq, bne_iff_ne]
  exact ⟨⟨by omega, hquote⟩, hslash⟩

theorem isNameChar_of_isNameStart {c : Char} (h : isNameStart c = true) : isNameChar c = true := by
  rw [isNameStart, Bool.or_eq_true] at h
  rw [isNameChar, Bool.or_eq_true, Char.isAlphanum, Bool.or_eq_true]
  rcases h with hletter | hmark
  · exact Or.inl (Or.inl hletter)
  · exact Or.inr hmark

theorem isNameChar_of_mem_dropLineFeed {name : String} (h : isIdentifier name = true) {c : Char}
    (hc : c ∈ dropLineFeed name.toList) : isNameChar c = true := by
  rw [isIdentifier, Bool.and_eq_true, isNameLike] at h
  obtain ⟨hlike, -⟩ := h
  split at hlike
  · cases hlike
  · rename_i first rest hchars
    rw [Bool.and_eq_true, List.all_eq_true] at hlike
    rw [hchars] at hc
    rcases List.mem_cons.mp hc with rfl | hrest
    · exact isNameChar_of_isNameStart hlike.1
    · exact hlike.2 c hrest

theorem isNameChar_of_mem {name : String} (h : isIdentifier name = true) {c : Char}
    (hc : c ∈ name.toList) : isNameChar c = true ∨ c = '\n' :=
  (mem_dropLineFeed hc).imp_left (isNameChar_of_mem_dropLineFeed h)

theorem not_mem_of_isIdentifier {name : String} (h : isIdentifier name = true) {c : Char}
    (hmark : isNameChar c = false) (hfeed : c ≠ '\n') : c ∉ name.toList := by
  intro hc
  rcases isNameChar_of_mem h hc with hname | heq
  · rw [hmark] at hname
    cases hname
  · exact hfeed heq

theorem ne_empty_of_isIdentifier {name : String} (h : isIdentifier name = true) : name ≠ "" := by
  rintro rfl
  exact absurd h (by decide)

/-! ### Plain names -/

/-- A name of letters, digits and underscores alone. -/
def IsPlain (name : String) : Prop := name.toList.all isNameChar = true

instance (name : String) : Decidable (IsPlain name) := inferInstanceAs (Decidable (_ = _))

theorem isPlain_iff {name : String} :
    IsPlain name ↔ ∀ c ∈ name.toList, isNameChar c = true := List.all_eq_true

theorem IsPlain.not_mem {name : String} (h : IsPlain name) {c : Char}
    (hc : isNameChar c = false) : c ∉ name.toList := by
  intro hmem
  rw [isPlain_iff.mp h c hmem] at hc
  cases hc

theorem IsPlain.isOrdinary {name : String} (h : IsPlain name) : ∀ c ∈ name.toList, Text.isOrdinary c = true :=
  fun c hc => isOrdinary_of_isNameChar (isPlain_iff.mp h c hc)

theorem IsPlain.append {name other : String} (h : IsPlain name) (hother : IsPlain other) :
    IsPlain (name ++ other) := by
  rw [IsPlain, String.toList_append, List.all_append, h, hother, Bool.and_self]

theorem IsPlain.intercalate {separator : String} {names : List String} (h : IsPlain separator)
    (hnames : ∀ name ∈ names, IsPlain name) : IsPlain (String.intercalate separator names) := by
  rw [isPlain_iff, String.toList_intercalate]
  intro c hc
  rcases mem_of_mem_intercalate hc with hseparator | ⟨group, hgroup, hmem⟩
  · exact isPlain_iff.mp h c hseparator
  · obtain ⟨name, hname, rfl⟩ := List.mem_map.mp hgroup
    exact isPlain_iff.mp (hnames name hname) c hmem

/-! ### Snake case -/

theorem isNameChar_toLower {c : Char} (h : isWordChar c = true) : isNameChar c.toLower = true := by
  rw [isWordChar, Char.isAlphanum, Bool.or_eq_true] at h
  rw [isNameChar, Char.isAlphanum]
  rcases h with hletter | hdigit
  · rw [Char.isAlpha_toLower_eq_isAlpha, hletter, Bool.true_or, Bool.true_or]
  · have hupper : ¬ c.isUpper = true := by
      simp only [Char.isDigit, Char.isUpper, Bool.and_eq_true, decide_eq_true_eq, ge_iff_le,
        UInt32.le_iff_toNat_le, Char.toNat_val, Char.reduceToNat] at hdigit ⊢
      omega
    rw [Char.toLower_eq_of_not_isUpper hupper, hdigit, Bool.or_true, Bool.true_or]

/-- What becomes of characters, at the start of a text and behind a word. -/
theorem isNameChar_of_mem_joinRuns {chars : List Char} :
    (∀ pending, ∀ c ∈ joinRuns pending chars, isNameChar c = true) ∧
      ∀ c ∈ joinRuns.afterWord chars, isNameChar c = true := by
  induction chars with
  | nil => simp [joinRuns, joinRuns.afterWord]
  | cons first rest ih =>
      obtain ⟨hruns, hword⟩ := ih
      constructor
      · intro pending
        rw [joinRuns]
        split
        · rename_i hfirst
          have hrest : ∀ c ∈ first.toLower :: joinRuns.afterWord rest, isNameChar c = true :=
            List.forall_mem_cons.mpr ⟨isNameChar_toLower hfirst, hword⟩
          split
          · exact List.forall_mem_cons.mpr ⟨by decide, hrest⟩
          · exact hrest
        · exact hruns pending
      · rw [joinRuns.afterWord]
        split
        · rename_i hfirst
          exact List.forall_mem_cons.mpr ⟨isNameChar_toLower hfirst, hword⟩
        · exact hruns true

theorem isPlain_tableName (resource : String) : IsPlain (tableName resource) := by
  rw [isPlain_iff, tableName, snakeCase, String.toList_ofList]
  exact isNameChar_of_mem_joinRuns.1 false

end ApiScaffold.Naming
