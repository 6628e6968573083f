import Mathlib
import ApiScaffold.Proofs.Naming.PascalCase
import ApiScaffold.Proofs.Naming.SnakeForm

/-! The letters of a name in its casings. Every casing keeps the letters and digits of ASCII in their order and
adds nothing but its separator, since the words of a name leave out gaps alone. Words with hyphens between them
are split into the same words again. -/

namespace ApiScaffold

/-! ### Small forms -/

namespace Text

theorem lowerCodesAfter_of_lt {codes : List Nat} (h : ∀ code ∈ codes, code < 0x80) (afterCased : Bool) :
    lowerCodesAfter afterCased codes = codes.flatMap smallForm := by
  induction codes generalizing afterCased with
  | nil => rfl
  | cons code rest ih =>
      obtain ⟨hcode, hrest⟩ := List.forall_mem_cons.mp h
      have hsigma : (code == 0x3A3) = false := beq_false_of_ne (by omega)
      rw [lowerCodesAfter, hsigma, if_neg Bool.false_ne_true, ih hrest, List.flatMap_cons]

/-- The small form of a text of ASCII has one character for each of its own. -/
theorem lowerChars_of_lt {chars : List Char} (h : ∀ c ∈ chars, c.toNat < 0x80) :
    lowerChars chars = chars.map Char.toLower := by
  have hone : ∀ code < 0x80, (smallForm code).map Char.ofNat = [(Char.ofNat code).toLower] := by decide
  have hcodes : ∀ code ∈ chars.map Char.toNat, code < 0x80 := List.forall_mem_map.mpr h
  rw [lowerChars, lowerCodes, lowerCodesAfter_of_lt hcodes, List.flatMap_map, List.map_flatMap,
    List.map_eq_flatMap]
  refine List.flatMap_congr fun c hc => ?_
  rw [hone _ (h c hc), Char.ofNat_toNat]

end Text

namespace Naming

instance (c : Char) : Decidable (IsLetter c) :=
  inferInstanceAs (Decidable ('a' ≤ c ∧ c ≤ 'z' ∨ 'A' ≤ c ∧ c ≤ 'Z'))

instance (c : Char) : Decidable (IsDigit c) := inferInstanceAs (Decidable ('0' ≤ c ∧ c ≤ '9'))

/-- The letters and digits of a name, in order and in small form. -/
def lettersOf (name : String) : List Char :=
  Text.lowerChars (name.toList.filter fun c => IsLetter c ∨ IsDigit c)

theorem lettersOf_eq (name : String) :
    lettersOf name = (name.toList.filter isWordChar).map Char.toLower := by
  have hfilter : (name.toList.filter fun c => IsLetter c ∨ IsDigit c) = name.toList.filter isWordChar :=
    List.filter_congr fun c _ => by simp [← isWordChar_iff]
  rw [lettersOf, hfilter]
  refine Text.lowerChars_of_lt fun c hc => ?_
  exact of_isWordChar (p := fun c => c.toNat < 0x80) (by decide) (List.mem_filter.mp hc).2

/-! ### Snake case -/

/-- Separators are no letters. -/
theorem filter_separateCasing (previous : Option Char) (chars : List Char) :
    (separateCasing previous chars).filter isWordChar = chars.filter isWordChar := by
  have hmark : isWordChar '_' = false := by decide
  induction chars generalizing previous with
  | nil => rfl
  | cons c rest ih =>
      have hkept : (c :: separateCasing (some c) rest).filter isWordChar = (c :: rest).filter isWordChar := by
        rw [List.filter_cons, List.filter_cons, ih]
      cases previous with
      | none => exact hkept
      | some p =>
          cases hbegins : beginsWord p c rest.head? with
          | true =>
              rw [separateCasing_cons_of_beginsWord hbegins, List.filter_cons_of_neg (by simp [hmark]), hkept]
          | false => rw [separateCasing_some_cons hbegins, hkept]

/-- Underscores apart, joined runs are the letters and digits. -/
theorem filter_joinRuns (chars : List Char) :
    (∀ pending, (joinRuns pending chars).filter (· ≠ '_') = (chars.filter isWordChar).map Char.toLower) ∧
      (joinRuns.afterWord chars).filter (· ≠ '_') = (chars.filter isWordChar).map Char.toLower := by
  induction chars with
  | nil => exact ⟨fun _ => rfl, rfl⟩
  | cons c rest ih =>
      obtain ⟨hruns, hword⟩ := ih
      cases hc : isWordChar c with
      | true =>
          have hletter : c.toLower ≠ '_' :=
            of_isWordChar (p := fun c => c.toLower ≠ '_') (by decide) hc
          have hfirst : (c.toLower :: joinRuns.afterWord rest).filter (· ≠ '_') =
              ((c :: rest).filter isWordChar).map Char.toLower := by
            rw [List.filter_cons_of_pos (by simpa using hletter), hword, List.filter_cons_of_pos hc, List.map_cons]
          refine ⟨fun pending => ?_, ?_⟩
          · rw [joinRuns, if_pos hc]
            cases pending with
            | true => rw [if_pos rfl, List.filter_cons_of_neg (by simp), hfirst]
            | false => rw [if_neg Bool.false_ne_true, hfirst]
          · rw [joinRuns.afterWord, if_pos hc, hfirst]
      | false =>
          have hskip : ¬isWordChar c = true := by simp [hc]
          rw [joinRuns.afterWord, if_neg hskip, List.filter_cons_of_neg hskip]
          refine ⟨fun pending => ?_, hruns true⟩
          rw [joinRuns, if_neg hskip, hruns]

theorem filter_snakeCase (name : String) : (snakeCase name).toList.filter (· ≠ '_') = lettersOf name := by
  rw [snakeCase, String.toList_ofList, (filter_joinRuns _).1, filter_separateCasing, lettersOf_eq]

/-! ### Words -/

/-- **Splitting a text into words leaves out its gaps alone.** -/
theorem flatten_splitWords {chars : List Char} {fuel : Nat} (hfuel : chars.length ≤ fuel) :
    (splitWords chars fuel).flatten = chars.filter isWordChar := by
  induction fuel generalizing chars with
  | zero => rw [List.eq_nil_of_length_eq_zero (Nat.le_zero.mp hfuel)]; rfl
  | succ fuel ih =>
      cases chars with
      | nil => rfl
      | cons c rest =>
          cases hc : isWordChar c with
          | true =>
              have hless : ((c :: rest).drop (wordLength (c :: rest))).length ≤ fuel := by
                have hpos := wordLength_ne_zero hc rest
                rw [List.length_drop]
                omega
              have hword : ((c :: rest).take (wordLength (c :: rest))).filter isWordChar =
                  (c :: rest).take (wordLength (c :: rest)) :=
                List.filter_eq_self.mpr fun _ => isWordChar_of_mem_word
              rw [splitWords_of_isWordChar hc, List.flatten_cons, ih hless]
              conv_rhs => rw [← List.take_append_drop (wordLength (c :: rest)) (c :: rest)]
              rw [List.filter_append, hword]
          | false =>
              rw [splitWords_of_gap hc, ih (Nat.le_of_succ_le_succ hfuel),
                List.filter_cons_of_neg (by simp [hc])]

/-- What a name is split into. -/
def split (name : String) : List (List Char) := splitWords name.toList name.toList.length

theorem isWord_of_mem_split {name : String} {word : List Char} (h : word ∈ split name) : IsWord word := by
  obtain ⟨hne, text, htake⟩ := exists_take_of_mem_splitWords h
  exact isWord_of_wordLength htake hne

theorem map_toList_words (name : String) :
    (words name).map String.toList = (split name).map (·.map Char.toLower) := by
  rw [words, List.map_map]
  exact List.map_congr_left fun word _ => String.toList_ofList

/-- The words of a name are made of its letters and digits. -/
theorem flatten_words (name : String) : ((words name).map String.toList).flatten = lettersOf name := by
  rw [map_toList_words, ← List.map_flatten, split, flatten_splitWords le_rfl, lettersOf_eq]

theorem map_toLower_titled {word : List Char} (h : IsWord word) :
    (titled word).map Char.toLower = word.map Char.toLower := by
  have hall := h.isWordChar
  cases word with
  | nil => exact absurd rfl h.ne_nil
  | cons c rest =>
      obtain ⟨hc, hrest⟩ := List.forall_mem_cons.mp hall
      rw [titled_cons hc hrest, List.map_cons, toLower_toUpper hc, map_toLower_map_toLower hrest,
        List.map_cons]

theorem lower_pascalCase (name : String) : (Text.lower (pascalCase name)).toList = lettersOf name := by
  have htitled : (pascalCase name).toList = (split name).flatMap titled := by
    rw [pascalCase, words, String.toList_join, List.map_map, List.flatMap_map]
    rfl
  have hcodes : ∀ c ∈ (pascalCase name).toList, c.toNat < 0x80 := fun c hc =>
    Nat.lt_succ_of_le ((toNat_of_isNameChar (isPlain_iff.mp (isPlain_className name) c hc)).2.trans (by decide))
  rw [Text.lower, String.toList_ofList, Text.lowerChars_of_lt hcodes, htitled, List.map_flatMap,
    List.flatMap_congr fun word hword => map_toLower_titled (isWord_of_mem_split hword), ← flatten_words,
    map_toList_words, List.flatMap_def]

/-! ### Kebab case -/

/-- Words with hyphens between them are split into the same words. -/
theorem splitWords_intercalate {words : List (List Char)} (hwords : ∀ word ∈ words, IsWord word) {fuel : Nat}
    (hfuel : (List.intercalate ['-'] words).length ≤ fuel) :
    splitWords (List.intercalate ['-'] words) fuel = words := by
  have hhyphen : isWordChar '-' = false := by decide
  induction words generalizing fuel with
  | nil => exact splitWords_gaps (List.forall_mem_nil _) fuel
  | cons word rest ih =>
      obtain ⟨hword, hrest⟩ := List.forall_mem_cons.mp hwords
      have hpos := List.length_pos_of_ne_nil hword.ne_nil
      cases rest with
      | nil =>
          rw [List.intercalate_singleton] at hfuel ⊢
          obtain ⟨fuel, rfl⟩ := Nat.exists_eq_add_of_le' (hpos.trans_le hfuel)
          have hnone : EndsWord [] := fun _ h => absurd h (Option.not_mem_none _)
          have hfirst := splitWords_append hword hnone fuel
          rw [List.append_nil, splitWords_gaps (List.forall_mem_nil _)] at hfirst
          exact hfirst
      | cons second rest =>
          rw [List.intercalate_cons_cons, List.append_assoc, List.singleton_append] at hfuel ⊢
          rw [List.length_append, List.length_cons] at hfuel
          obtain ⟨fuel, rfl⟩ := Nat.exists_eq_add_of_le' (show 2 ≤ fuel by omega)
          have hends : EndsWord ('-' :: List.intercalate ['-'] (second :: rest)) := by
            rintro c ⟨⟩
            exact hhyphen
          rw [splitWords_append hword hends, splitWords_of_gap hhyphen, ih hrest (by omega)]

theorem IsWord.map_toLower {word : List Char} (h : IsWord word) : IsWord (word.map Char.toLower) := by
  cases h with
  | letters h =>
      have hsmall : ∀ c ∈ word.map Char.toLower, isLower c = true :=
        List.forall_mem_map.mpr fun c hc => isLower_toLower (h.isLower_or_isUpper c hc)
      cases word with
      | nil => exact absurd rfl h.ne_nil
      | cons c rest => exact .letters (.small hsmall)
  | @digits c rest h =>
      have hsame : (c :: rest).map Char.toLower = c :: rest := (List.map_congr_left fun d hd =>
        toLower_of_not_isUpper (not_isUpper_of_isDigit (h d hd))).trans (List.map_id _)
      rw [hsame]
      exact .digits h

theorem isWord_of_mem_words {name : String} {word : List Char} (h : word ∈ (words name).map String.toList) :
    IsWord word := by
  rw [map_toList_words] at h
  obtain ⟨chars, hchars, rfl⟩ := List.mem_map.mp h
  exact (isWord_of_mem_split hchars).map_toLower

theorem toList_kebabCase (name : String) :
    (kebabCase name).toList = List.intercalate ['-'] ((words name).map String.toList) :=
  String.toList_intercalate

theorem filter_kebabCase (name : String) : (kebabCase name).toList.filter (· ≠ '-') = lettersOf name := by
  have hletter : ∀ {c : Char}, isWordChar c = true → c ≠ '-' := by
    rintro _ h rfl
    exact absurd h (by decide)
  rw [toList_kebabCase, filter_intercalate (by simp), flatten_words]
  exact fun word hword c hc => by simpa using hletter ((isWord_of_mem_words hword).isWordChar c hc)

theorem words_kebabCase (name : String) : words (kebabCase name) = words name := by
  have hsmall : ∀ word ∈ (words name).map String.toList, word.map Char.toLower = word := by
    intro word hword
    rw [map_toList_words] at hword
    obtain ⟨chars, hchars, rfl⟩ := List.mem_map.mp hword
    exact map_toLower_map_toLower (isWord_of_mem_split hchars).isWordChar
  apply List.map_injective_iff.mpr fun _ _ => String.toList_injective
  rw [map_toList_words, split, toList_kebabCase,
    splitWords_intercalate (fun _ => isWord_of_mem_words) le_rfl, List.map_congr_left hsmall, List.map_id']

theorem kebabCase_kebabCase (name : String) : kebabCase (kebabCase name) = kebabCase name := by
  rw [kebabCase, words_kebabCase, kebabCase]

theorem isLetter_iff {c : Char} : IsLetter c ↔ isLower c = true ∨ isUpper c = true := by
  simp only [IsLetter, isLower, isUpper, Char.isLower, Char.isUpper, Char.le_def, Bool.and_eq_true,
    decide_eq_true_eq, ge_iff_le]

theorem isDigit_iff {c : Char} : IsDigit c ↔ c.isDigit = true := by
  simp only [IsDigit, Char.isDigit, Char.le_def, Bool.and_eq_true, decide_eq_true_eq, ge_iff_le]

/-- A word of a name is of one kind. -/
theorem letters_or_digits {name word : String} (h : word ∈ words name) :
    (∀ c ∈ word.toList, IsLetter c) ∨ ∀ c ∈ word.toList, IsDigit c := by
  have hword := isWord_of_mem_words (List.mem_map_of_mem h)
  generalize word.toList = chars at hword ⊢
  cases hword with
  | letters h => exact Or.inl fun c hc => isLetter_iff.mpr (h.isLower_or_isUpper c hc)
  | digits h => exact Or.inr fun c hc => isDigit_iff.mpr (h c hc)

/-- **No casing loses a letter or digit.** Snake case but for its underscores, kebab case but for its hyphens,
and Pascal case in small form are all the letters and digits of the name in small form. The words of a name are
each of letters or of digits, and its kebab case has the same words, so it stays as it is. -/
theorem casings_keep_letters (name : String) :
    (snakeCase name).toList.filter (· ≠ '_') = lettersOf name ∧
      (kebabCase name).toList.filter (· ≠ '-') = lettersOf name ∧
      (Text.lower (pascalCase name)).toList = lettersOf name ∧
      (∀ word ∈ words name, (∀ c ∈ word.toList, IsLetter c) ∨ ∀ c ∈ word.toList, IsDigit c) ∧
      words (kebabCase name) = words name ∧
      kebabCase (kebabCase name) = kebabCase name :=
  ⟨filter_snakeCase name, filter_kebabCase name, lower_pascalCase name, fun _ => letters_or_digits,
    words_kebabCase name, kebabCase_kebabCase name⟩

/-- Capitals in a row, a digit and separators that stand together. -/
theorem casings_keep_letters_server :
    words "HTTPServer2__go" = ["http", "server", "2", "go"] ∧
      (kebabCase "HTTPServer2__go").toList.filter (· ≠ '-') = "httpserver2go".toList ∧
      ((∀ c ∈ "2".toList, IsLetter c) ∨ ∀ c ∈ "2".toList, IsDigit c) := by
  have hwords : words "HTTPServer2__go" = ["http", "server", "2", "go"] := by decide +kernel
  have hletters : lettersOf "HTTPServer2__go" = "httpserver2go".toList := by decide +kernel
  obtain ⟨-, hkebab, -, hkinds, -, -⟩ := casings_keep_letters "HTTPServer2__go"
  exact ⟨hwords, hkebab.trans hletters, hkinds "2" (by rw [hwords]; decide)⟩

end Naming

end ApiScaffold
