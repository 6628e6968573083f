import Mathlib
import ApiScaffold.Proofs.Naming.Identifier

/-! Words of names and what is made of them. A module has no name exactly if the name of its resource has
no letter and no digit, classes are named by letters and digits, routes by words with hyphens between
them, and handlers by plain names. -/

namespace ApiScaffold.Naming

/-! ### Snake case -/

theorem mem_separateCasing {previous : Option Char} {chars : List Char} {c : Char} :
    (c ∈ chars → c ∈ separateCasing previous chars) ∧
      (c ∈ separateCasing previous chars → c ∈ chars ∨ c = '_') := by
  induction chars generalizing previous with
  | nil => simp [separateCasing]
  | cons first rest ih =>
      obtain ⟨hkept, hmade⟩ := @ih (some first)
      have hbehind : c ∈ first :: separateCasing (some first) rest → c ∈ first :: rest ∨ c = '_' := by
        intro h
        rcases List.mem_cons.mp h with rfl | hrest
        · exact Or.inl List.mem_cons_self
        · exact (hmade hrest).imp_left (List.mem_cons_of_mem first)
      have hall : c ∈ first :: rest → c ∈ first :: separateCasing (some first) rest := by
        intro h
        rcases List.mem_cons.mp h with rfl | hrest
        · exact List.mem_cons_self
        · exact List.mem_cons_of_mem first (hkept hrest)
      cases previous with
      | none => exact ⟨hall, hbehind⟩
      | some p =>
          rw [separateCasing]
          split
          · refine ⟨fun h => List.mem_cons_of_mem '_' (hall h), fun h => ?_⟩
            rcases List.mem_cons.mp h with rfl | hrest
            · exact Or.inr rfl
            · exact hbehind hrest
          · exact ⟨hall, hbehind⟩

theorem joinRuns_eq_nil {pending : Bool} {chars : List Char} :
    joinRuns pending chars = [] ↔ ∀ c ∈ chars, isWordChar c = false := by
  induction chars generalizing pending with
  | nil => simp [joinRuns]
  | cons first rest ih =>
      rw [joinRuns, List.forall_mem_cons]
      cases hfirst : isWordChar first with
      | true => cases pending <;> simp
      | false => simpa using ih

/-- Only letters and digits make up a module name. -/
theorem moduleName_ne_empty_iff {resource : String} :
    moduleName resource ≠ "" ↔ ∃ c ∈ resource.toList, isWordChar c = true := by
  have hempty : moduleName resource = "" ↔ ∀ c ∈ resource.toList, isWordChar c = false := by
    rw [moduleName, snakeCase, ← String.toList_eq_nil_iff, String.toList_ofList, joinRuns_eq_nil]
    constructor
    · exact fun h c hc => h c (mem_separateCasing.1 hc)
    · intro h c hc
      rcases mem_separateCasing.2 hc with hmem | rfl
      · exact h c hmem
      · decide
  rw [Ne, hempty]
  push Not
  simp only [Bool.not_eq_false]

theorem isPlain_moduleName (resource : String) : IsPlain (moduleName resource) := by
  rw [isPlain_iff, moduleName, snakeCase, String.toList_ofList]
  exact isNameChar_of_mem_joinRuns.1 false

/-! ### Words -/

theorem isWordChar_of_isLower {c : Char} (h : isLower c = true) : isWordChar c = true := by
  rw [isWordChar, Char.isAlphanum, Char.isAlpha, show c.isLower = true from h]
  simp

theorem isWordChar_of_isUpper {c : Char} (h : isUpper c = true) : isWordChar c = true := by
  rw [isWordChar, Char.isAlphanum, Char.isAlpha, show c.isUpper = true from h]
  simp

theorem isWordChar_of_isDigit {c : Char} (h : c.isDigit = true) : isWordChar c = true := by
  rw [isWordChar, Char.isAlphanum, h, Bool.or_true]

/-- What is taken while all characters are of a kind, or a part of it, is of that kind. -/
theorem of_mem_take {chars : List Char} {kind : Char → Bool} {length : Nat}
    (hlength : length ≤ (chars.takeWhile kind).length) {c : Char} (h : c ∈ chars.take length) :
    kind c = true := by
  have htaken : chars.take (chars.takeWhile kind).length = chars.takeWhile kind :=
    (List.prefix_iff_eq_take.mp (List.takeWhile_prefix kind)).symm
  have hmem : c ∈ chars.take (chars.takeWhile kind).length := List.take_subset_take_left _ hlength h
  rw [htaken] at hmem
  exact List.mem_takeWhile_imp hmem

theorem isWordChar_of_mem_take {chars : List Char} {kind : Char → Bool}
    (hkind : ∀ c, kind c = true → isWordChar c = true) {length : Nat}
    (hlength : length ≤ (chars.takeWhile kind).length) {c : Char} (h : c ∈ chars.take length) :
    isWordChar c = true := hkind c (of_mem_take hlength h)

theorem capitalsInWord_le (capitals : List Char) (next : Option Char) :
    capitalsInWord capitals next ≤ capitals.length := by
  rw [capitalsInWord]
  split <;> omega

theorem isWordChar_of_mem_word {chars : List Char} {c : Char}
    (h : c ∈ chars.take (wordLength chars)) : isWordChar c = true := by
  cases chars with
  | nil => exact absurd h List.not_mem_nil
  | cons first rest =>
      rw [wordLength] at h
      dsimp only at h
      split at h
      · exact isWordChar_of_mem_take (fun _ => isWordChar_of_isLower) le_rfl h
      · split at h
        · rename_i hupper
          split at h
          · exact isWordChar_of_mem_take (fun _ => isWordChar_of_isUpper)
              (capitalsInWord_le _ _) h
          · rw [List.take_succ_cons, List.mem_cons] at h
            rcases h with rfl | hrest
            · exact isWordChar_of_isUpper hupper
            · exact isWordChar_of_mem_take (fun _ => isWordChar_of_isLower) le_rfl hrest
        · split at h
          · exact isWordChar_of_mem_take (fun _ => isWordChar_of_isDigit) le_rfl h
          · exact absurd h List.not_mem_nil

/-- Every word is found at the start of some text, and it is not empty. -/
theorem exists_take_of_mem_splitWords {chars word : List Char} {fuel : Nat}
    (h : word ∈ splitWords chars fuel) : word ≠ [] ∧ ∃ text : List Char, word = text.take (wordLength text) := by
  induction fuel generalizing chars with
  | zero => exact absurd h List.not_mem_nil
  | succ fuel ih =>
      cases chars with
      | nil => exact absurd h List.not_mem_nil
      | cons first rest =>
          rw [splitWords] at h
          split at h
          · exact ih h
          · rename_i hlength
            rcases List.mem_cons.mp h with rfl | hrest
            · exact ⟨by simpa using hlength, _, rfl⟩
            · exact ih hrest

theorem isWordChar_of_mem_splitWords {chars word : List Char} {fuel : Nat}
    (h : word ∈ splitWords chars fuel) {c : Char} (hc : c ∈ word) : isWordChar c = true := by
  obtain ⟨-, text, rfl⟩ := exists_take_of_mem_splitWords h
  exact isWordChar_of_mem_word hc

theorem isPlain_of_mem_words {name word : String} (h : word ∈ words name) : IsPlain word := by
  obtain ⟨chars, hchars, rfl⟩ := List.mem_map.mp h
  rw [isPlain_iff, String.toList_ofList]
  intro c hc
  obtain ⟨original, horiginal, rfl⟩ := List.mem_map.mp hc
  exact isNameChar_toLower (isWordChar_of_mem_splitWords hchars horiginal)

/-- A route is made of plain words and hyphens. -/
theorem mem_kebabCase {name : String} {c : Char} (h : c ∈ (kebabCase name).toList) :
    isNameChar c = true ∨ c = '-' := by
  rw [kebabCase, String.toList_intercalate] at h
  rcases mem_of_mem_intercalate h with hmark | ⟨group, hgroup, hc⟩
  · exact Or.inr (List.mem_singleton.mp hmark)
  · obtain ⟨word, hword, rfl⟩ := List.mem_map.mp hgroup
    exact Or.inl (isPlain_iff.mp (isPlain_of_mem_words hword) c hc)

/-! ### Capitals -/

/-- A change of case that keeps the characters of names among themselves on their codes does so. -/
theorem isNameChar_map {f : Char → Char} (hcodes : ∀ code < 0x7B,
      isNameChar (Char.ofNat code) = true → isNameChar (f (Char.ofNat code)) = true)
    {c : Char} (h : isNameChar c = true) : isNameChar (f c) = true := by
  have hcode := toNat_of_isNameChar h
  rw [← Char.ofNat_toNat c] at h ⊢
  exact hcodes c.toNat (by omega) h

theorem IsPlain.capitalise {word : String} (h : IsPlain word) : IsPlain (capitalise word) := by
  rw [isPlain_iff] at h
  rw [Naming.capitalise]
  split
  · rfl
  · rename_i first rest hchars
    rw [hchars, List.forall_mem_cons] at h
    rw [isPlain_iff, String.toList_ofList, List.forall_mem_cons]
    refine ⟨isNameChar_map (by decide) h.1, fun c hc => ?_⟩
    obtain ⟨original, horiginal, rfl⟩ := List.mem_map.mp hc
    exact isNameChar_map (by decide) (h.2 original horiginal)

theorem isPlain_className (resource : String) : IsPlain (className resource) := by
  rw [isPlain_iff, className, pascalCase, String.toList_join]
  intro c hc
  obtain ⟨part, hpart, hmem⟩ := List.mem_flatMap.mp hc
  obtain ⟨word, hword, rfl⟩ := List.mem_map.mp hpart
  exact isPlain_iff.mp (isPlain_of_mem_words hword).capitalise c hmem

/-! ### Plurals -/

theorem mem_regularPlural {name lower : List Char} {c : Char} (h : c ∈ regularPlural name lower) :
    c ∈ name ∨ c ∈ ['e', 's', 'i', 'v'] := by
  have hfront : ∀ front ending : List Char, front ⊆ name → ending ⊆ ['e', 's', 'i', 'v'] →
      c ∈ front ++ ending → c ∈ name ∨ c ∈ ['e', 's', 'i', 'v'] := by
    intro front ending hfront hending hmem
    exact (List.mem_append.mp hmem).imp (fun h => hfront h) (fun h => hending h)
  have hone : name.dropLast ⊆ name := List.dropLast_subset name
  have htwo : name.dropLast.dropLast ⊆ name := fun _ h => hone (List.dropLast_subset _ h)
  unfold regularPlural at h
  dsimp only at h
  split at h
  · exact Or.inl h
  · split at h
    · exact hfront name ['e', 's'] (List.Subset.refl name) (by decide) h
    · split at h
      · exact hfront _ ['i', 'e', 's'] hone (by decide) h
      · split at h
        · exact hfront _ ['v', 'e', 's'] htwo (by decide) h
        · split at h
          · exact hfront _ ['v', 'e', 's'] hone (by decide) h
          · exact hfront name ['s'] (List.Subset.refl name) (by decide) h

theorem IsPlain.plural {name : String} (h : IsPlain name) : IsPlain (plural name) := by
  have hirregular : ∀ entry ∈ irregularPlurals, IsPlain entry.2 := by decide
  have hletters : ['e', 's', 'i', 'v'].all isNameChar = true := by decide
  rw [isPlain_iff] at h
  rw [Naming.plural]
  dsimp only
  split
  · rfl
  · split
    · rename_i irregular hlookup
      obtain ⟨before, behind, hentries, -⟩ := List.lookup_eq_some_iff.mp hlookup
      rw [hentries, List.forall_mem_append, List.forall_mem_cons] at hirregular
      have hplain : IsPlain irregular := hirregular.2.1
      have hcased : ∀ capital : Bool,
          IsPlain (if capital then Naming.capitalise irregular else irregular) := by
        intro capital
        cases capital with
        | true => exact hplain.capitalise
        | false => exact hplain
      refine IsPlain.append ?_ ?_
      · rw [isPlain_iff, String.toList_ofList]
        exact fun c hc => h c (List.mem_of_mem_take hc)
      · exact hcased _
    · rw [isPlain_iff, String.toList_ofList]
      intro c hc
      rcases mem_regularPlural hc with hname | hending
      · exact h c hname
      · exact List.all_eq_true.mp hletters c hending

end ApiScaffold.Naming
