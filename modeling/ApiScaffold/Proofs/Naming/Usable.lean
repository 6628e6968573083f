import Mathlib
import ApiScaffold.Proofs.Check.Names
import ApiScaffold.Proofs.Naming.PascalCase

/-! Which resources have names that code can use. The checks look at the names of resources alone, yet the
names of modules and classes leave out what surrounds the core and change the case, so they may be empty,
begin with a digit or be keywords. -/

namespace ApiScaffold

namespace Naming

/-! ### Spellings -/

/-- A word in small letters, with a capital, and in capitals. -/
def spellings (word : String) : List String :=
  [word, capitalise word, String.ofList (word.toList.map Char.toUpper)]

/-- A word of small letters. -/
def IsSmallWord (word : String) : Prop := word ≠ "" ∧ word.toList.all isLower = true

instance (word : String) : Decidable (IsSmallWord word) := inferInstanceAs (Decidable (_ ∧ _))

theorem map_toLower {chars : List Char} (h : ∀ c ∈ chars, isLower c = true) :
    chars.map Char.toLower = chars := by
  rw [List.map_congr_left fun c hc => toLower_of_isLower (h c hc), List.map_id']

section Spellings

variable {name word : String} (hword : IsSmallWord word)

include hword

theorem exists_toList_eq_cons : ∃ c rest, word.toList = c :: rest ∧
    (∀ d ∈ c :: rest, isLower d = true) ∧ (capitalise word).toList = c.toUpper :: rest := by
  obtain ⟨hne, hsmall⟩ := hword
  rw [List.all_eq_true] at hsmall
  cases hchars : word.toList with
  | nil => exact absurd (String.toList_eq_nil_iff.mp hchars) hne
  | cons c rest =>
      rw [hchars] at hsmall
      have hrest := map_toLower (List.forall_mem_cons.mp hsmall).2
      exact ⟨c, rest, rfl, hsmall, by simp [capitalise, hchars, hrest]⟩

/-- The spellings of a word are those that both casings take for this one word. -/
theorem mem_spellings_iff :
    name ∈ spellings word ↔ IsOneWord name.toList ∧ name.toList.map Char.toLower = word.toList := by
  obtain ⟨c, rest, hchars, hsmall, hcapital⟩ := exists_toList_eq_cons hword
  obtain ⟨hc, hrest⟩ := List.forall_mem_cons.mp hsmall
  simp only [spellings, List.mem_cons, List.not_mem_nil, or_false, ← String.toList_inj, hcapital,
    String.toList_ofList, hchars]
  generalize name.toList = chars
  constructor
  · rintro (h | h | h)
    · rw [h]
      exact ⟨.small hsmall, map_toLower hsmall⟩
    · rw [h, List.map_cons, map_toLower hrest, toLower_toUpper (isWordChar_of_isLower hc),
        toLower_of_isLower hc]
      exact ⟨.capital (isUpper_toUpper hc) hrest, rfl⟩
    · have hback : ((c :: rest).map Char.toUpper).map Char.toLower = c :: rest := by
        rw [List.map_map]
        refine (List.map_congr_left fun d hd => ?_).trans (map_toLower hsmall)
        exact toLower_toUpper (isWordChar_of_isLower (hsmall d hd))
      rw [h]
      have hall : ∀ d ∈ (c :: rest).map Char.toUpper, isUpper d = true :=
        List.forall_mem_map.mpr fun d hd => isUpper_toUpper (hsmall d hd)
      exact ⟨.capitals hall, hback⟩
  · rintro ⟨hone, hlower⟩
    cases hone with
    | small h => exact Or.inl ((map_toLower h).symm.trans hlower)
    | @capital d more hd h =>
        rw [List.map_cons, map_toLower h] at hlower
        obtain ⟨rfl, rfl⟩ := List.cons.inj hlower
        rw [toUpper_toLower (isWordChar_of_isUpper hd), toUpper_of_isUpper hd]
        exact Or.inr (Or.inl rfl)
    | @capitals d more h =>
        right; right
        rw [← hlower, List.map_map]
        refine ((List.map_congr_left fun e he => ?_).trans (List.map_id' _)).symm
        rw [Function.comp_apply, toUpper_toLower (isWordChar_of_isUpper (h e he)),
          toUpper_of_isUpper (h e he)]

theorem moduleName_eq_iff : moduleName name = word ↔ core name ∈ spellings word := by
  obtain ⟨c, rest, hchars, hsmall, -⟩ := exists_toList_eq_cons hword
  rw [mem_spellings_iff hword, ← String.toList_inj, hchars]
  exact toList_moduleName_eq_iff (List.cons_ne_nil c rest) hsmall

theorem className_eq_iff : className name = capitalise word ↔ core name ∈ spellings word := by
  obtain ⟨c, rest, hchars, hsmall, hcapital⟩ := exists_toList_eq_cons hword
  rw [mem_spellings_iff hword, ← String.toList_inj, hcapital, hchars]
  exact toList_className_eq_iff hsmall

end Spellings

/-! ### First characters -/

theorem head?_moduleName (name : String) :
    (moduleName name).toList.head? = (core name).toList.head?.map Char.toLower := by
  have hhead := @isWordChar_of_mem_head?_core name
  rw [toList_moduleName]
  generalize (core name).toList = chars at hhead ⊢
  cases chars with
  | nil => rfl
  | cons c rest =>
      rw [separateCasing_none_cons, joinRuns, if_pos (hhead rfl)]
      rfl

theorem head?_className (name : String) :
    (className name).toList.head? = (core name).toList.head?.map Char.toUpper := by
  obtain ⟨front, behind, fuel, -, -, hbehind, hfuel, hclass⟩ := exists_toList_className name
  have hhead := @isWordChar_of_mem_head?_core name
  rw [hclass]
  generalize (core name).toList = chars at hhead hfuel ⊢
  cases chars with
  | nil => rw [List.nil_append, splitWords_gaps hbehind]; rfl
  | cons c rest =>
      cases fuel with
      | zero => exact absurd hfuel (Nat.not_succ_le_zero _)
      | succ fuel =>
          have hc : isWordChar c = true := hhead rfl
          obtain ⟨length, hlength⟩ := Nat.exists_eq_succ_of_ne_zero
            (wordLength_ne_zero hc (rest ++ behind))
          rw [List.cons_append, splitWords_of_isWordChar hc, List.flatMap_cons]
          have hword : ∀ d ∈ (c :: (rest ++ behind)).take (wordLength (c :: (rest ++ behind))),
            isWordChar d = true := fun d => isWordChar_of_mem_word
          rw [hlength, List.take_succ_cons, List.forall_mem_cons] at hword
          rw [hlength, List.take_succ_cons, titled_cons hc hword.2]
          rfl

/-! ### Names in code -/

/-- A name that code can have: letters, digits and underscores of ASCII, no digit at the start, no
keyword. -/
def IsUsable (name : String) : Prop :=
  name ≠ "" ∧ IsPlain name ∧ name.toList.head?.any Char.isDigit = false ∧ name ∉ keywords

instance (name : String) : Decidable (IsUsable name) := inferInstanceAs (Decidable (_ ∧ _))

/-- The first letter or digit of a name is a letter. -/
def BeginsWithLetter (name : String) : Prop := (core name).toList.head?.any Char.isAlpha = true

instance (name : String) : Decidable (BeginsWithLetter name) := inferInstanceAs (Decidable (_ = _))

/-- The keywords of small letters. -/
def smallKeywords : List String := keywords.filter fun word => word.toList.all isLower

/-- The keywords that have a capital, in small letters. -/
def titledKeywords : List String := ["false", "none", "true"]

theorem isSmallWord_of_mem_titledKeywords : ∀ word ∈ titledKeywords, IsSmallWord word := by
  decide +kernel

theorem isSmallWord_of_mem_smallKeywords {word : String} (h : word ∈ smallKeywords) :
    IsSmallWord word := by
  have hne : ∀ word ∈ keywords, word ≠ "" := by decide +kernel
  obtain ⟨hmem, hsmall⟩ := List.mem_filter.mp h
  exact ⟨hne word hmem, hsmall⟩

theorem mem_keywords_iff {name : String} :
    name ∈ keywords ↔ name ∈ smallKeywords ∨ ∃ word ∈ titledKeywords, name = capitalise word := by
  have hcases : ∀ word ∈ keywords, word.toList.all isLower = true ∨
      word ∈ titledKeywords.map capitalise := by decide +kernel
  have htitled : ∀ word ∈ titledKeywords, capitalise word ∈ keywords := by decide +kernel
  constructor
  · intro h
    rcases hcases name h with hsmall | hcapital
    · exact Or.inl (List.mem_filter.mpr ⟨h, hsmall⟩)
    · obtain ⟨word, hword, heq⟩ := List.mem_map.mp hcapital
      exact Or.inr ⟨word, hword, heq.symm⟩
  · rintro (hsmall | ⟨word, hword, rfl⟩)
    · exact (List.mem_filter.mp hsmall).1
    · exact htitled word hword

section Resource

variable {name derived : String}

/-- A plain name that begins like the core, in another case, is usable if the core begins with a letter and
the name is no keyword. -/
theorem isUsable_iff {change : Char → Char} (hplain : IsPlain derived)
    (hchange : ∀ {c : Char}, isWordChar c = true → (change c).isDigit = !c.isAlpha)
    (hbegins : derived.toList.head? = (core name).toList.head?.map change) :
    IsUsable derived ↔ BeginsWithLetter name ∧ derived ∉ keywords := by
  have hhead := @isWordChar_of_mem_head?_core name
  have hletter : (derived ≠ "" ∧ derived.toList.head?.any Char.isDigit = false) ↔
      BeginsWithLetter name := by
    rw [BeginsWithLetter, hbegins, Ne, ← String.toList_eq_nil_iff, ← List.head?_eq_none_iff, hbegins]
    cases hcore : (core name).toList.head? with
    | none => simp
    | some c => simp [hchange (hhead hcore)]
  rw [IsUsable, ← hletter]
  constructor
  · rintro ⟨hne, -, hdigit, hkeyword⟩
    exact ⟨⟨hne, hdigit⟩, hkeyword⟩
  · rintro ⟨⟨hne, hdigit⟩, hkeyword⟩
    exact ⟨hne, hplain, hdigit, hkeyword⟩

/-- A module is named like a keyword of small letters only. -/
theorem moduleName_mem_keywords_iff :
    moduleName name ∈ keywords ↔ ∃ word ∈ smallKeywords, core name ∈ spellings word := by
  rw [mem_keywords_iff]
  constructor
  · rintro (hmem | ⟨word, hword, heq⟩)
    · exact ⟨_, hmem, (moduleName_eq_iff (isSmallWord_of_mem_smallKeywords hmem)).mp rfl⟩
    · obtain ⟨c, rest, -, hsmall, hcapital⟩ :=
        exists_toList_eq_cons (isSmallWord_of_mem_titledKeywords word hword)
      have hfirst := head?_moduleName name
      rw [heq, hcapital, List.head?_cons, eq_comm, Option.map_eq_some_iff] at hfirst
      obtain ⟨d, hd, hlower⟩ := hfirst
      have hupper := isUpper_toUpper (hsmall c List.mem_cons_self)
      rw [← hlower, not_isUpper_toLower (isWordChar_of_mem_head?_core hd)] at hupper
      cases hupper
  · rintro ⟨word, hword, hmem⟩
    rw [(moduleName_eq_iff (isSmallWord_of_mem_smallKeywords hword)).mpr hmem]
    exact Or.inl hword

/-- A class is named like a keyword with a capital only. -/
theorem className_mem_keywords_iff :
    className name ∈ keywords ↔ ∃ word ∈ titledKeywords, core name ∈ spellings word := by
  rw [mem_keywords_iff]
  constructor
  · rintro (hmem | ⟨word, hword, heq⟩)
    · obtain ⟨c, rest, hchars, hsmall, -⟩ :=
        exists_toList_eq_cons (isSmallWord_of_mem_smallKeywords hmem)
      have hfirst := head?_className name
      rw [hchars, List.head?_cons, eq_comm, Option.map_eq_some_iff] at hfirst
      obtain ⟨d, hd, hupper⟩ := hfirst
      have hlower := hsmall c List.mem_cons_self
      rw [← hupper, not_isLower_toUpper (isWordChar_of_mem_head?_core hd)] at hlower
      cases hlower
    · exact ⟨word, hword, (className_eq_iff (isSmallWord_of_mem_titledKeywords word hword)).mp heq⟩
  · rintro ⟨word, hword, hmem⟩
    exact Or.inr ⟨word, hword,
      (className_eq_iff (isSmallWord_of_mem_titledKeywords word hword)).mpr hmem⟩

end Resource

/-- **Which resources have names that code can use.** A resource has a module of a usable name exactly if
the first letter or digit of its name is a letter and the core of the name is no spelling of a keyword of
small letters. The same goes for its class and the keywords that have a capital. -/
theorem names_usable_iff (resource : String) :
    (IsUsable (moduleName resource) ↔
        BeginsWithLetter resource ∧ ∀ word ∈ smallKeywords, core resource ∉ spellings word) ∧
      (IsUsable (className resource) ↔
        BeginsWithLetter resource ∧ ∀ word ∈ titledKeywords, core resource ∉ spellings word) := by
  have hlower : ∀ {c : Char}, isWordChar c = true → c.toLower.isDigit = !c.isAlpha :=
    of_isWordChar (p := fun c => c.toLower.isDigit = !c.isAlpha) (by decide)
  have hupper : ∀ {c : Char}, isWordChar c = true → c.toUpper.isDigit = !c.isAlpha :=
    of_isWordChar (p := fun c => c.toUpper.isDigit = !c.isAlpha) (by decide)
  constructor
  · rw [isUsable_iff (isPlain_moduleName resource) hlower (head?_moduleName resource),
      moduleName_mem_keywords_iff]
    push Not
    rfl
  · rw [isUsable_iff (isPlain_className resource) hupper (head?_className resource),
      className_mem_keywords_iff]
    push Not
    rfl

end Naming

/-! ### Accepted names that code cannot use -/

/-- Resources of names that are identifiers, none of them reserved. -/
def unusable : ApiConfig where
  name := "School"
  resources := [
    { name := "Class", fields := [{ name := "title", type := .string }] },
    { name := "none", fields := [{ name := "title", type := .string }] },
    { name := "_1st", fields := [{ name := "title", type := .string }] },
    { name := "_", fields := [{ name := "title", type := .string }] }]

/-- They are accepted, with a module and a class of the name of a keyword, names that begin with a digit, and
empty ones. -/
theorem names_unusable_school :
    unusable.Accepted ∧
      unusable.resourceNames.map (fun name => (Naming.moduleName name, Naming.className name)) =
        [("class", "Class"), ("none", "None"), ("1st", "1St"), ("", "")] ∧
      ∀ name ∈ unusable.resourceNames,
        ¬(Naming.IsUsable (Naming.moduleName name) ∧ Naming.IsUsable (Naming.className name)) := by
  refine ⟨by decide +kernel, by decide +kernel, by decide +kernel⟩

end ApiScaffold
