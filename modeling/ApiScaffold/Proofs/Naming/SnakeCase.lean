import Mathlib
import ApiScaffold.Proofs.Naming.Core

/-! Which names make a module of a given name. A module is named by a word of small letters exactly if the
core of the name of its resource is this word, in small letters, with a capital or in capitals; every other
change of case leaves an underscore. -/

namespace ApiScaffold.Naming

/-! ### One word -/

/-- Letters that both casings take for one word: small ones, a capital with small ones, or capitals. -/
inductive IsOneWord : List Char → Prop where
  | small {c : Char} {rest : List Char} (h : ∀ d ∈ c :: rest, isLower d = true) : IsOneWord (c :: rest)
  | capital {c : Char} {rest : List Char} (hc : isUpper c = true)
      (h : ∀ d ∈ rest, isLower d = true) : IsOneWord (c :: rest)
  | capitals {c : Char} {rest : List Char} (h : ∀ d ∈ c :: rest, isUpper d = true) :
      IsOneWord (c :: rest)

theorem IsOneWord.isLower_or_isUpper {chars : List Char} (h : IsOneWord chars) :
    ∀ c ∈ chars, isLower c = true ∨ isUpper c = true := by
  cases h with
  | small h => exact fun c hc => Or.inl (h c hc)
  | capital hc h => exact List.forall_mem_cons.mpr ⟨Or.inr hc, fun c hc => Or.inl (h c hc)⟩
  | capitals h => exact fun c hc => Or.inr (h c hc)

theorem IsOneWord.isWordChar {chars : List Char} (h : IsOneWord chars) :
    ∀ c ∈ chars, isWordChar c = true :=
  fun c hc => (h.isLower_or_isUpper c hc).elim isWordChar_of_isLower isWordChar_of_isUpper

theorem IsOneWord.ne_nil {chars : List Char} (h : IsOneWord chars) : chars ≠ [] := by
  cases h <;> exact List.cons_ne_nil _ _

section Letters

variable {p : Char} {chars : List Char}

/-- Without a separator, small letters follow small letters. -/
theorem isLower_of_separateCasing (hp : isLower p = true)
    (hletters : ∀ c ∈ chars, isLower c = true ∨ isUpper c = true)
    (h : '_' ∉ separateCasing (some p) chars) : ∀ c ∈ chars, isLower c = true := by
  induction chars generalizing p with
  | nil => exact List.forall_mem_nil _
  | cons c rest ih =>
      obtain ⟨hletter, hrest⟩ := List.forall_mem_cons.mp hletters
      have hc : isLower c = true := by
        refine hletter.resolve_right fun hupper => ?_
        have hbegins : beginsWord p c rest.head? = true := by simp [beginsWord, hupper, hp]
        rw [separateCasing_cons_of_beginsWord hbegins] at h
        exact h List.mem_cons_self
      rw [separateCasing_some_cons (beginsWord_of_not_isUpper (not_isUpper_of_isLower hc) _),
        List.mem_cons, not_or] at h
      exact List.forall_mem_cons.mpr ⟨hc, ih hc hrest h.2⟩

/-- Without a separator, either small letters or capitals follow a capital. -/
theorem isLower_or_isUpper_of_separateCasing (hp : isUpper p = true)
    (hletters : ∀ c ∈ chars, isLower c = true ∨ isUpper c = true)
    (h : '_' ∉ separateCasing (some p) chars) :
    (∀ c ∈ chars, isLower c = true) ∨ ∀ c ∈ chars, isUpper c = true := by
  induction chars generalizing p with
  | nil => exact Or.inl (List.forall_mem_nil _)
  | cons c rest ih =>
      obtain ⟨hletter, hrest⟩ := List.forall_mem_cons.mp hletters
      cases hbegins : beginsWord p c rest.head? with
      | true =>
          rw [separateCasing_cons_of_beginsWord hbegins] at h
          exact absurd List.mem_cons_self h
      | false =>
          rw [separateCasing_some_cons hbegins, List.mem_cons, not_or] at h
          rcases hletter with hlower | hupper
          · exact Or.inl (List.forall_mem_cons.mpr ⟨hlower, isLower_of_separateCasing hlower hrest h.2⟩)
          · refine Or.inr (List.forall_mem_cons.mpr ⟨hupper, ?_⟩)
            rcases ih hupper hrest h.2 with hsmall | hcapitals
            · cases rest with
              | nil => exact List.forall_mem_nil _
              | cons d rest => simp [beginsWord, hupper, hp, hsmall d List.mem_cons_self] at hbegins
            · exact hcapitals

theorem isOneWord_of_separateCasing (hne : chars ≠ [])
    (hletters : ∀ c ∈ chars, isLower c = true ∨ isUpper c = true)
    (h : '_' ∉ separateCasing none chars) : IsOneWord chars := by
  cases chars with
  | nil => exact absurd rfl hne
  | cons c rest =>
      obtain ⟨hletter, hrest⟩ := List.forall_mem_cons.mp hletters
      rw [separateCasing_none_cons, List.mem_cons, not_or] at h
      rcases hletter with hlower | hupper
      · exact .small (List.forall_mem_cons.mpr ⟨hlower, isLower_of_separateCasing hlower hrest h.2⟩)
      · rcases isLower_or_isUpper_of_separateCasing hupper hrest h.2 with hsmall | hcapitals
        · exact .capital hupper hsmall
        · exact .capitals (List.forall_mem_cons.mpr ⟨hupper, hcapitals⟩)

theorem separateCasing_of_isLower (h : ∀ c ∈ chars, isLower c = true) (p : Char) :
    separateCasing (some p) chars = chars := by
  induction chars generalizing p with
  | nil => rfl
  | cons c rest ih =>
      obtain ⟨hc, hrest⟩ := List.forall_mem_cons.mp h
      rw [separateCasing_some_cons (beginsWord_of_not_isUpper (not_isUpper_of_isLower hc) _), ih hrest]

theorem separateCasing_of_isUpper (hp : isUpper p = true) (h : ∀ c ∈ chars, isUpper c = true) :
    separateCasing (some p) chars = chars := by
  induction chars generalizing p with
  | nil => rfl
  | cons c rest ih =>
      obtain ⟨hc, hrest⟩ := List.forall_mem_cons.mp h
      have hnext : (rest.head?.map isLower).getD false = false := by
        cases rest with
        | nil => rfl
        | cons d rest => exact not_isLower_of_isUpper (hrest d List.mem_cons_self)
      have hbegins : beginsWord p c rest.head? = false := by
        rw [beginsWord, hnext, not_isLower_of_isUpper hp, not_isDigit_of_isUpper hp]
        simp
      rw [separateCasing_some_cons hbegins, ih hc hrest]

theorem IsOneWord.separateCasing (h : IsOneWord chars) : separateCasing none chars = chars := by
  cases h with
  | small h =>
      exact congrArg _ (separateCasing_of_isLower (List.forall_mem_cons.mp h).2 _)
  | capital hc h => exact congrArg _ (separateCasing_of_isLower h _)
  | capitals h =>
      obtain ⟨hc, hrest⟩ := List.forall_mem_cons.mp h
      exact congrArg _ (separateCasing_of_isUpper hc hrest)

end Letters

/-! ### Modules -/

section Runs

variable {chars : List Char}

theorem afterWord_of_isWordChar (h : ∀ c ∈ chars, isWordChar c = true) :
    joinRuns.afterWord chars = chars.map Char.toLower := by
  induction chars with
  | nil => rfl
  | cons c rest ih =>
      obtain ⟨hc, hrest⟩ := List.forall_mem_cons.mp h
      rw [joinRuns.afterWord, if_pos hc, ih hrest, List.map_cons]

theorem joinRuns_of_isWordChar (h : ∀ c ∈ chars, isWordChar c = true) :
    joinRuns false chars = chars.map Char.toLower := by
  cases chars with
  | nil => rfl
  | cons c rest =>
      obtain ⟨hc, hrest⟩ := List.forall_mem_cons.mp h
      rw [joinRuns, if_pos hc, if_neg Bool.false_ne_true, afterWord_of_isWordChar hrest, List.map_cons]

theorem joinRuns_true (chars : List Char) : joinRuns true chars = [] ∨ '_' ∈ joinRuns true chars := by
  induction chars with
  | nil => exact Or.inl rfl
  | cons c rest ih =>
      rw [joinRuns]
      split
      · exact Or.inr List.mem_cons_self
      · exact ih

/-- A run of other characters leaves an underscore, unless it is at the end. -/
theorem isWordChar_of_afterWord (h : '_' ∉ joinRuns.afterWord chars)
    (hlast : ∀ c ∈ chars.getLast?, isWordChar c = true) : ∀ c ∈ chars, isWordChar c = true := by
  induction chars with
  | nil => exact List.forall_mem_nil _
  | cons c rest ih =>
      cases hc : isWordChar c with
      | true =>
          rw [joinRuns.afterWord, if_pos hc, List.mem_cons, not_or] at h
          refine List.forall_mem_cons.mpr ⟨hc, ih h.2 fun d hd => hlast d ?_⟩
          rw [List.getLast?_cons, Option.mem_def.mp hd]
          rfl
      | false =>
          rw [joinRuns.afterWord, if_neg (by simp [hc])] at h
          have hgaps := joinRuns_eq_nil.mp ((joinRuns_true rest).resolve_right h)
          have hall : AreGaps (c :: rest) := List.forall_mem_cons.mpr ⟨hc, hgaps⟩
          have hend := List.getLast?_eq_some_getLast (List.cons_ne_nil c rest)
          have hword := hlast _ hend
          rw [hall _ (List.getLast_mem _)] at hword
          cases hword

end Runs

theorem getLast?_separateCasing (previous : Option Char) (chars : List Char) :
    (separateCasing previous chars).getLast? = chars.getLast? := by
  induction chars generalizing previous with
  | nil => rfl
  | cons c rest ih =>
      have hbehind : (c :: separateCasing (some c) rest).getLast? = (c :: rest).getLast? := by
        rw [List.getLast?_cons, List.getLast?_cons, ih]
      cases previous with
      | none => exact hbehind
      | some p =>
          cases hbegins : beginsWord p c rest.head? with
          | true =>
              rw [separateCasing_cons_of_beginsWord hbegins, List.getLast?_cons_cons, hbehind]
          | false => rw [separateCasing_some_cons hbegins, hbehind]

/-- The word of small letters that a module is named by, if it is one word. -/
theorem toList_moduleName_eq_iff {name : String} {word : List Char} (hne : word ≠ [])
    (hword : ∀ c ∈ word, isLower c = true) :
    (moduleName name).toList = word ↔
      IsOneWord (core name).toList ∧ (core name).toList.map Char.toLower = word := by
  rw [toList_moduleName]
  constructor
  · intro h
    have hhead := @isWordChar_of_mem_head?_core name
    have hlast := @isWordChar_of_mem_getLast?_core name
    generalize (core name).toList = chars at h hhead hlast ⊢
    have hmark : '_' ∉ word := fun hmem => absurd (hword _ hmem) (by decide)
    have hall : ∀ c ∈ separateCasing none chars, isWordChar c = true := by
      cases chars with
      | nil => exact List.forall_mem_nil _
      | cons c rest =>
          have hc := hhead rfl
          rw [separateCasing_none_cons, joinRuns, if_pos hc, if_neg Bool.false_ne_true] at h
          rw [← h, List.mem_cons, not_or] at hmark
          rw [separateCasing_none_cons, List.forall_mem_cons]
          refine ⟨hc, isWordChar_of_afterWord hmark.2 fun d hd => hlast ?_⟩
          rw [getLast?_separateCasing] at hd
          rw [List.getLast?_cons, Option.mem_def.mp hd]
          rfl
    rw [joinRuns_of_isWordChar hall] at h
    have hletters : ∀ c ∈ chars, isLower c = true ∨ isUpper c = true := by
      intro c hc
      have hmem := (@mem_separateCasing none chars c).1 hc
      exact isLower_or_isUpper (hall c hmem) (hword _ (h ▸ List.mem_map_of_mem hmem))
    have hone : IsOneWord chars := by
      refine isOneWord_of_separateCasing ?_ hletters fun hmem => absurd (hall _ hmem) (by decide)
      rintro rfl
      exact hne h.symm
    exact ⟨hone, by rwa [hone.separateCasing] at h⟩
  · rintro ⟨hone, rfl⟩
    rw [hone.separateCasing, joinRuns_of_isWordChar hone.isWordChar]

end ApiScaffold.Naming
