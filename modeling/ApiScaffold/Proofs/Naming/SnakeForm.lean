import Mathlib
import ApiScaffold.Proofs.Check.Identifiers
import ApiScaffold.Proofs.Naming.Core

/-! The form of names in snake case: words of small letters and digits with single underscores between them.
Such a name stays as it is. Only a name without letters and digits leaves nothing, and a table always has a
name, since a plural has a letter even where its singular has none. -/

namespace ApiScaffold.Naming

/-! ### Words of small letters and digits -/

/-- A small letter or a digit of ASCII. -/
def IsSmallOrDigit (c : Char) : Prop := ('a' ≤ c ∧ c ≤ 'z') ∨ IsDigit c

instance (c : Char) : Decidable (IsSmallOrDigit c) :=
  inferInstanceAs (Decidable (('a' ≤ c ∧ c ≤ 'z') ∨ '0' ≤ c ∧ c ≤ '9'))

/-- Words of small letters and digits, one or more, with one underscore between two of them. -/
def IsSnake (name : String) : Prop :=
  ∃ words : List (List Char), words ≠ [] ∧
    (∀ word ∈ words, word ≠ [] ∧ ∀ c ∈ word, IsSmallOrDigit c) ∧
    name.toList = List.intercalate ['_'] words

/-- What stands behind a character of a word in such a name. -/
inductive GoesOn : List Char → Prop where
  | nil : GoesOn []
  | word {c : Char} {rest : List Char} (hc : IsSmallOrDigit c) (hrest : GoesOn rest) : GoesOn (c :: rest)
  | next {c : Char} {rest : List Char} (hc : IsSmallOrDigit c) (hrest : GoesOn rest) :
    GoesOn ('_' :: c :: rest)

theorem isWordChar_iff {c : Char} : isWordChar c = true ↔ IsLetter c ∨ IsDigit c := by
  simp only [isWordChar, Char.isAlphanum, Char.isAlpha, Char.isUpper, Char.isLower, Char.isDigit,
    IsLetter, IsDigit, Char.le_def, Bool.or_eq_true, Bool.and_eq_true, decide_eq_true_eq, ge_iff_le]
  rw [or_comm (a := _ ∧ _) (b := _ ∧ _)]

section Characters

variable {c : Char}

theorem isSmallOrDigit_toLower (h : isWordChar c = true) : IsSmallOrDigit c.toLower :=
  of_isWordChar (p := fun c => IsSmallOrDigit c.toLower) (by decide) h

theorem IsSmallOrDigit.isWordChar (h : IsSmallOrDigit c) : isWordChar c = true :=
  isWordChar_iff.mpr (h.imp_left Or.inl)

theorem IsSmallOrDigit.not_isUpper (h : IsSmallOrDigit c) : isUpper c = false :=
  of_isWordChar (p := fun c => IsSmallOrDigit c → isUpper c = false) (by decide) h.isWordChar h

theorem IsSmallOrDigit.toLower (h : IsSmallOrDigit c) : c.toLower = c :=
  toLower_of_not_isUpper h.not_isUpper

end Characters

namespace GoesOn

variable {c : Char} {rest : List Char}

theorem not_isUpper (h : GoesOn rest) : ∀ c ∈ rest, isUpper c = false := by
  induction h with
  | nil => exact List.forall_mem_nil _
  | word hc _ ih => exact List.forall_mem_cons.mpr ⟨hc.not_isUpper, ih⟩
  | next hc _ ih =>
      exact List.forall_mem_cons.mpr ⟨by decide, List.forall_mem_cons.mpr ⟨hc.not_isUpper, ih⟩⟩

/-- Runs that are joined stay as they are. -/
theorem afterWord_eq (h : GoesOn rest) : joinRuns.afterWord rest = rest := by
  induction h with
  | nil => rfl
  | word hc _ ih => rw [joinRuns.afterWord, if_pos hc.isWordChar, hc.toLower, ih]
  | next hc _ ih =>
      rw [joinRuns.afterWord, if_neg (by decide), joinRuns, if_pos hc.isWordChar, if_pos rfl, hc.toLower, ih]

/-- A word under way and what stands behind it are words with underscores between them. -/
theorem exists_words (h : GoesOn rest) {word : List Char} (hne : word ≠ [])
    (hword : ∀ c ∈ word, IsSmallOrDigit c) :
    ∃ words : List (List Char), words ≠ [] ∧
      (∀ word ∈ words, word ≠ [] ∧ ∀ c ∈ word, IsSmallOrDigit c) ∧
      word ++ rest = List.intercalate ['_'] words := by
  induction h generalizing word with
  | nil =>
      refine ⟨[word], List.cons_ne_nil _ _, List.forall_mem_singleton.mpr ⟨hne, hword⟩, ?_⟩
      rw [List.intercalate_singleton, List.append_nil]
  | @word c rest hc _ ih =>
      have hlonger : ∀ d ∈ word ++ [c], IsSmallOrDigit d :=
        List.forall_mem_append.mpr ⟨hword, List.forall_mem_singleton.mpr hc⟩
      obtain ⟨words, hwords, hall, heq⟩ :=
        ih (List.append_ne_nil_of_right_ne_nil _ (List.cons_ne_nil _ _)) hlonger
      refine ⟨words, hwords, hall, ?_⟩
      rw [← heq, List.append_assoc, List.singleton_append]
  | @next c rest hc _ ih =>
      obtain ⟨words, hwords, hall, heq⟩ := ih (List.cons_ne_nil c []) (List.forall_mem_singleton.mpr hc)
      refine ⟨word :: words, List.cons_ne_nil _ _, List.forall_mem_cons.mpr ⟨⟨hne, hword⟩, hall⟩, ?_⟩
      obtain ⟨second, others, rfl⟩ := List.exists_cons_of_ne_nil hwords
      rw [List.intercalate_cons_cons, ← heq, List.append_assoc]
      rfl

end GoesOn

/-! ### Snake case -/

theorem goesOn_joinRuns (chars : List Char) :
    GoesOn (joinRuns.afterWord chars) ∧ GoesOn (joinRuns true chars) ∧
      (joinRuns false chars = [] ∨
        ∃ c rest, IsSmallOrDigit c ∧ GoesOn rest ∧ joinRuns false chars = c :: rest) := by
  induction chars with
  | nil => exact ⟨.nil, .nil, Or.inl rfl⟩
  | cons c rest ih =>
      obtain ⟨hword, hpending, hstart⟩ := ih
      cases hc : isWordChar c with
      | true =>
          have hsmall := isSmallOrDigit_toLower hc
          rw [joinRuns.afterWord, joinRuns, joinRuns, if_pos hc, if_pos hc, if_pos rfl, if_pos hc,
            if_neg Bool.false_ne_true]
          exact ⟨.word hsmall hword, .next hsmall hword, Or.inr ⟨_, _, hsmall, hword, rfl⟩⟩
      | false =>
          rw [joinRuns.afterWord, joinRuns, joinRuns, hc, if_neg Bool.false_ne_true, if_neg Bool.false_ne_true,
            if_neg Bool.false_ne_true]
          exact ⟨hpending, hpending, hstart⟩

/-- A name in snake case is empty or begins with a word and goes on as it should. -/
theorem toList_snakeCase (name : String) :
    (snakeCase name).toList = [] ∨
      ∃ c rest, IsSmallOrDigit c ∧ GoesOn rest ∧ (snakeCase name).toList = c :: rest := by
  rw [snakeCase, String.toList_ofList]
  exact (goesOn_joinRuns _).2.2

theorem isSnake_snakeCase {name : String} (h : snakeCase name ≠ "") : IsSnake (snakeCase name) := by
  rcases toList_snakeCase name with hempty | ⟨c, rest, hc, hrest, hchars⟩
  · exact absurd (String.toList_eq_nil_iff.mp hempty) h
  · obtain ⟨words, hwords, hall, heq⟩ :=
      hrest.exists_words (List.cons_ne_nil c []) (List.forall_mem_singleton.mpr hc)
    exact ⟨words, hwords, hall, hchars.trans heq⟩

theorem snakeCase_eq_empty_iff {name : String} :
    snakeCase name = "" ↔ ∀ c ∈ name.toList, ¬(IsLetter c ∨ IsDigit c) := by
  rw [← not_iff_not, ← ne_eq, ← moduleName, moduleName_ne_empty_iff]
  simp only [isWordChar_iff]
  push Not
  rfl

theorem separateCasing_of_not_isUpper {chars : List Char} (h : ∀ c ∈ chars, isUpper c = false)
    (previous : Option Char) : separateCasing previous chars = chars := by
  induction chars generalizing previous with
  | nil => rfl
  | cons c rest ih =>
      obtain ⟨hc, hrest⟩ := List.forall_mem_cons.mp h
      cases previous with
      | none => rw [separateCasing_none_cons, ih hrest]
      | some p => rw [separateCasing_some_cons (beginsWord_of_not_isUpper hc _), ih hrest]

theorem snakeCase_snakeCase (name : String) : snakeCase (snakeCase name) = snakeCase name := by
  apply String.toList_injective
  rw [snakeCase, String.toList_ofList]
  rcases toList_snakeCase name with hempty | ⟨c, rest, hc, hrest, hchars⟩
  · rw [hempty]
    rfl
  · have hsmall : ∀ d ∈ c :: rest, isUpper d = false :=
      List.forall_mem_cons.mpr ⟨hc.not_isUpper, hrest.not_isUpper⟩
    rw [hchars, separateCasing_of_not_isUpper hsmall, joinRuns, if_pos hc.isWordChar,
      if_neg Bool.false_ne_true, hc.toLower, hrest.afterWord_eq]

end Naming

/-! ### Small forms -/

namespace Text

/-- No letter beyond ASCII becomes a small letter of ASCII, except for one sign that becomes a small k. -/
theorem of_covers {run : CaseRun} (hrun : run ∈ caseRuns) {code : Nat} (h : run.covers code = true) :
    0x80 ≤ (code + run.shift).toNat ∨ (code + run.shift).toNat = 0x6B := by
  have hall : ∀ run ∈ caseRuns, 0x80 ≤ run.first + run.shift ∨
      (run.first = run.last ∧ run.first + run.shift = 0x6B) := by decide +kernel
  simp only [CaseRun.covers, Bool.and_eq_true, decide_eq_true_eq] at h
  rcases hall run hrun with hfar | ⟨hone, hsign⟩
  · omega
  · omega

/-- Only an s becomes an s. -/
theorem s_of_mem_smallForm {code : Nat} (h : 0x73 ∈ smallForm code) : code = 0x53 ∨ code = 0x73 := by
  rw [smallForm] at h
  split at h
  · rw [List.mem_singleton] at h
    split at h <;> omega
  · split at h
    · simp at h
    · split at h
      · rename_i run hrun
        have hcovers := List.find?_some hrun
        have hcode := of_covers (List.mem_of_find?_eq_some hrun) hcovers
        rw [List.mem_singleton] at h
        omega
      · rw [List.mem_singleton] at h
        exact Or.inr h.symm

theorem s_of_mem_lowerCodes {afterCased : Bool} {codes : List Nat}
    (h : 0x73 ∈ lowerCodesAfter afterCased codes) :
    ∃ code ∈ codes, code = 0x53 ∨ code = 0x73 := by
  induction codes generalizing afterCased with
  | nil => exact absurd h List.not_mem_nil
  | cons code rest ih =>
      rw [lowerCodesAfter] at h
      rcases List.mem_append.mp h with hsmall | hrest
      · refine ⟨code, List.mem_cons_self, ?_⟩
        split at hsmall
        · split at hsmall <;> simp at hsmall
        · exact s_of_mem_smallForm hsmall
      · obtain ⟨other, hother, hs⟩ := ih hrest
        exact ⟨other, List.mem_cons_of_mem _ hother, hs⟩

theorem s_of_mem_lowerChars {chars : List Char} (h : 's' ∈ lowerChars chars) :
    ∃ c ∈ chars, c = 'S' ∨ c = 's' := by
  obtain ⟨code, hcode, heq⟩ := List.mem_map.mp h
  have hs : code = 0x73 := by
    have hnat := congrArg Char.toNat heq
    rw [Char.toNat_ofNat] at hnat
    split at hnat
    · exact hnat
    · cases hnat
  obtain ⟨original, horiginal, hcase⟩ := s_of_mem_lowerCodes (hs ▸ hcode)
  obtain ⟨c, hc, rfl⟩ := List.mem_map.mp horiginal
  exact ⟨c, hc, hcase.imp (fun h => Char.toNat_inj.mp h) fun h => Char.toNat_inj.mp h⟩

end Text

/-! ### Tables -/

namespace Naming

theorem subset_of_endsWith {s ending : List Char} (h : endsWith s ending = true) : ending ⊆ s := by
  rw [endsWith, List.isPrefixOf_iff_prefix] at h
  intro c hc
  exact List.mem_reverse.mp (h.subset (List.mem_reverse.mpr hc))

/-- A plural by rule has an s. -/
theorem exists_s_of_regularPlural (name : List Char) {tail : List Char} (htail : tail ⊆ name) :
    ∃ c ∈ regularPlural name (Text.lowerChars tail), c = 'S' ∨ c = 's' := by
  have happended : ∀ front behind : List Char, 's' ∈ behind → ∃ c ∈ front ++ behind, c = 'S' ∨ c = 's' :=
    fun front behind hs => ⟨'s', List.mem_append_right front hs, Or.inr rfl⟩
  unfold regularPlural
  dsimp only
  split
  -- Only this rule appends no s of its own, and it looks at the small form of the name.
  · rename_i hends
    rw [Bool.and_eq_true] at hends
    have hmem : 's' ∈ Text.lowerChars tail := subset_of_endsWith hends.1 (by decide)
    obtain ⟨c, hc, hs⟩ := Text.s_of_mem_lowerChars hmem
    exact ⟨c, htail hc, hs⟩
  · split
    · exact happended _ _ (by decide)
    · split
      · exact happended _ _ (by decide)
      · split
        · exact happended _ _ (by decide)
        · split
          · exact happended _ _ (by decide)
          · exact happended _ _ (by decide)

theorem exists_isWordChar_capitalise {word : String} (h : ∃ c ∈ word.toList.head?, isWordChar c = true) :
    ∃ c ∈ (capitalise word).toList, isWordChar c = true := by
  obtain ⟨c, hc, hword⟩ := h
  rw [capitalise]
  cases hchars : word.toList with
  | nil => simp [hchars] at hc
  | cons first rest =>
      obtain rfl : first = c := by simpa [hchars] using hc
      rw [String.toList_ofList]
      exact ⟨first.toUpper, List.mem_cons_self,
        of_isWordChar (p := fun c => isWordChar c.toUpper = true) (by decide) hword⟩

theorem exists_isWordChar_plural {name : String} (h : name ≠ "") :
    ∃ c ∈ (plural name).toList, isWordChar c = true := by
  have hchars : name.toList.isEmpty = false := by simpa using h
  have hirregular : ∀ entry ∈ irregularPlurals, entry.2.toList.head?.any isWordChar = true := by
    decide +kernel
  rw [plural]
  dsimp only
  rw [hchars, if_neg Bool.false_ne_true]
  split
  · rename_i irregular hlookup
    have hword : ∃ c ∈ irregular.toList.head?, isWordChar c = true := by
      simpa [Option.any_eq_true] using hirregular _ (mem_of_lookup hlookup)
    have hcased : ∀ capital : Bool, ∃ c ∈ (if capital then capitalise irregular else irregular).toList,
        isWordChar c = true := by
      rintro (_ | _)
      · exact hword.imp fun c hc => ⟨List.mem_of_mem_head? hc.1, hc.2⟩
      · exact exists_isWordChar_capitalise hword
    obtain ⟨c, hc, hwordChar⟩ := hcased _
    rw [String.toList_append]
    exact ⟨c, List.mem_append_right _ hc, hwordChar⟩
  · rw [String.toList_ofList]
    obtain ⟨c, hc, hs⟩ := exists_s_of_regularPlural name.toList (List.drop_subset _ name.toList)
    refine ⟨c, hc, ?_⟩
    rcases hs with rfl | rfl <;> decide

theorem isSnake_tableName {name : String} (h : name ≠ "") : IsSnake (tableName name) :=
  isSnake_snakeCase (moduleName_ne_empty_iff.mpr (exists_isWordChar_plural h))

/-- **The form of names in snake case.** Snake case makes of every text words of small letters and digits with
single underscores between them, or nothing where the text has no letter and no digit of ASCII, and leaves
such words as they are. The table of every name but the empty one is named by such words. -/
theorem snake_case_formed (name : String) :
    (snakeCase name = "" ∨ IsSnake (snakeCase name)) ∧
      (snakeCase name = "" ↔ ∀ c ∈ name.toList, ¬(IsLetter c ∨ IsDigit c)) ∧
      snakeCase (snakeCase name) = snakeCase name ∧
      (name ≠ "" → IsSnake (tableName name)) :=
  ⟨or_iff_not_imp_left.mpr isSnake_snakeCase, snakeCase_eq_empty_iff, snakeCase_snakeCase name,
    isSnake_tableName⟩

/-- A name without letters of ASCII has a table all the same. -/
theorem snake_case_formed_accented :
    "É" ≠ "" ∧ snakeCase "É" = "" ∧ tableName "É" = "s" ∧ IsSnake (tableName "É") := by
  have hname : "É" ≠ "" := by decide
  exact ⟨hname, by decide +kernel, by decide +kernel, (snake_case_formed "É").2.2.2 hname⟩

end Naming

end ApiScaffold
