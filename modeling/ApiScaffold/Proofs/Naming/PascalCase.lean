import Mathlib
import ApiScaffold.Proofs.Naming.SnakeCase

/-! Which names make a class of a given name. A class is named by one word with a capital exactly if the core
of the name of its resource is this word, in small letters, with a capital or in capitals; every other
change of case begins another word, which has a capital too. -/

namespace ApiScaffold.Naming

/-! ### Lengths of words -/

section Lengths

variable {c : Char} {rest word behind : List Char}

theorem takeWhile_append_of_endsWord {kind : Char → Bool}
    (hkind : ∀ c, kind c = true → isWordChar c = true) (hword : ∀ c ∈ word, kind c = true)
    (hbehind : EndsWord behind) : (word ++ behind).takeWhile kind = word := by
  rw [List.takeWhile_append_of_pos hword]
  cases behind with
  | nil => exact List.append_nil word
  | cons c rest =>
      have hc : kind c = false := eq_false_of_gap (hkind c) (hbehind c rfl)
      rw [List.takeWhile_cons_of_neg (by simp [hc]), List.append_nil]

theorem capitalsInWord_of_endsWord (capitals : List Char) (hbehind : EndsWord behind) :
    capitalsInWord capitals behind.head? = capitals.length := by
  cases behind with
  | nil => rfl
  | cons c rest =>
      have hc : isLower c = false := eq_false_of_gap isWordChar_of_isLower (hbehind c rfl)
      simp [capitalsInWord, hc]

theorem wordLength_of_isLower (h : isLower c = true) :
    wordLength (c :: rest) = ((c :: rest).takeWhile isLower).length := by
  rw [wordLength, if_pos h]

/-- The length of a word that begins with a capital. -/
theorem wordLength_of_isUpper (h : isUpper c = true) :
    wordLength (c :: rest) =
      if (rest.takeWhile isLower).length = 0 then
        capitalsInWord ((c :: rest).takeWhile isUpper)
          ((c :: rest).drop ((c :: rest).takeWhile isUpper).length).head?
      else (rest.takeWhile isLower).length + 1 := by
  have hlower := not_isLower_of_isUpper h
  simp only [wordLength, hlower, h, Bool.false_eq_true, if_false, if_true]

theorem wordLength_of_capitals (h : ∀ d ∈ c :: rest, isUpper d = true) (hbehind : EndsWord behind) :
    wordLength (c :: rest ++ behind) = (c :: rest).length := by
  have hcapitals : (c :: rest ++ behind).takeWhile isUpper = c :: rest :=
    takeWhile_append_of_endsWord (fun _ => isWordChar_of_isUpper) h hbehind
  have hnone : (rest ++ behind).takeWhile isLower = [] := by
    cases rest with
    | nil =>
        exact takeWhile_append_of_endsWord (fun _ => isWordChar_of_isLower) (List.forall_mem_nil _) hbehind
    | cons d rest =>
        refine List.takeWhile_cons_of_neg ?_
        simp [not_isLower_of_isUpper (h d (by simp))]
  rw [List.cons_append] at hcapitals ⊢
  rw [wordLength_of_isUpper (h c List.mem_cons_self), hnone, hcapitals, ← List.cons_append,
    List.drop_left, capitalsInWord_of_endsWord _ hbehind]
  rfl

/-- One word is found as a whole if none goes on behind it. -/
theorem IsOneWord.wordLength (h : IsOneWord word) (hbehind : EndsWord behind) :
    wordLength (word ++ behind) = word.length := by
  cases h with
  | @small c rest h =>
      rw [List.cons_append, wordLength_of_isLower (h c List.mem_cons_self), ← List.cons_append,
        takeWhile_append_of_endsWord (fun _ => isWordChar_of_isLower) h hbehind]
  | @capital c rest hc h =>
      cases rest with
      | nil => exact wordLength_of_capitals (List.forall_mem_singleton.mpr hc) hbehind
      | cons d rest =>
          rw [List.cons_append, wordLength_of_isUpper hc,
            takeWhile_append_of_endsWord (fun _ => isWordChar_of_isLower) h hbehind]
          rfl
  | capitals h => exact wordLength_of_capitals h hbehind

theorem wordLength_of_isDigit (h : c.isDigit = true) :
    wordLength (c :: rest) = ((c :: rest).takeWhile Char.isDigit).length := by
  have hlower := not_isLower_of_isDigit h
  have hupper := not_isUpper_of_isDigit h
  simp only [wordLength, hlower, hupper, h, Bool.false_eq_true, if_false, if_true]

theorem wordLength_of_gap (h : isWordChar c = false) : wordLength (c :: rest) = 0 := by
  have hlower : isLower c = false := eq_false_of_gap isWordChar_of_isLower h
  have hdigit : c.isDigit = false := eq_false_of_gap isWordChar_of_isDigit h
  simp only [wordLength, hlower, not_isUpper_of_gap h, hdigit, Bool.false_eq_true, if_false]

/-- A letter or digit begins a word. -/
theorem wordLength_ne_zero (h : isWordChar c = true) (rest : List Char) : wordLength (c :: rest) ≠ 0 := by
  have htaken : ∀ {kind : Char → Bool}, kind c = true → ((c :: rest).takeWhile kind).length ≠ 0 := by
    intro kind hkind
    rw [List.takeWhile_cons_of_pos hkind]
    exact Nat.succ_ne_zero _
  cases hlower : isLower c with
  | true =>
      rw [wordLength_of_isLower hlower]
      exact htaken hlower
  | false =>
      cases hupper : isUpper c with
      | true =>
          rw [wordLength_of_isUpper hupper]
          split
          · rename_i hnone
            cases rest with
            | nil => simp [capitalsInWord, hupper]
            | cons d rest =>
                have hd : isLower d = false := by
                  by_contra hlower
                  rw [List.takeWhile_cons_of_pos (by simpa using hlower)] at hnone
                  exact Nat.succ_ne_zero _ hnone
                cases hnext : isUpper d with
                | true =>
                    rw [List.takeWhile_cons_of_pos hupper, List.takeWhile_cons_of_pos hnext, capitalsInWord]
                    split <;> simp
                | false => simp [capitalsInWord, hupper, hnext, hd]
          · exact Nat.succ_ne_zero _
      | false =>
          have hdigit : c.isDigit = true := by
            simpa [isWordChar, Char.isAlphanum, Char.isAlpha, show c.isLower = false from hlower,
              show c.isUpper = false from hupper] using h
          rw [wordLength_of_isDigit hdigit]
          exact htaken hdigit

/-- What names are split into: letters that make up one word, or digits. -/
inductive IsWord : List Char → Prop where
  | letters {word : List Char} (h : IsOneWord word) : IsWord word
  | digits {c : Char} {rest : List Char} (h : ∀ d ∈ c :: rest, d.isDigit = true) : IsWord (c :: rest)

theorem IsWord.isWordChar (h : IsWord word) : ∀ c ∈ word, isWordChar c = true := by
  cases h with
  | letters h => exact h.isWordChar
  | digits h => exact fun c hc => isWordChar_of_isDigit (h c hc)

theorem IsWord.ne_nil (h : IsWord word) : word ≠ [] := by
  cases h with
  | letters h => exact h.ne_nil
  | digits h => exact List.cons_ne_nil _ _

theorem IsWord.isOneWord (h : IsWord word) (hletters : ∀ c ∈ word, isLower c = true ∨ isUpper c = true) :
    IsOneWord word := by
  cases h with
  | letters h => exact h
  | @digits c rest h =>
      have hdigit := h c List.mem_cons_self
      rcases hletters c List.mem_cons_self with hlower | hupper
      · exact absurd hlower (by simp [not_isLower_of_isDigit hdigit])
      · exact absurd hupper (by simp [not_isUpper_of_isDigit hdigit])

theorem IsWord.wordLength (h : IsWord word) (hbehind : EndsWord behind) :
    wordLength (word ++ behind) = word.length := by
  cases h with
  | letters h => exact h.wordLength hbehind
  | @digits c rest h =>
      rw [List.cons_append, wordLength_of_isDigit (h c List.mem_cons_self), ← List.cons_append,
        takeWhile_append_of_endsWord (fun _ => isWordChar_of_isDigit) h hbehind]

/-- What is found as a word is one. -/
theorem isWord_of_wordLength {chars : List Char} (h : word = chars.take (wordLength chars))
    (hne : word ≠ []) : IsWord word := by
  cases chars with
  | nil => exact absurd (h.trans List.take_nil) hne
  | cons c rest =>
      obtain ⟨length, hlength⟩ := Nat.exists_eq_succ_of_ne_zero
        (show wordLength (c :: rest) ≠ 0 from fun hzero => hne (by rw [h, hzero, List.take_zero]))
      have hcons : word = c :: rest.take length := by rw [h, hlength, List.take_succ_cons]
      have htaken : ∀ {kind : Char → Bool}, wordLength (c :: rest) ≤ ((c :: rest).takeWhile kind).length →
          ∀ d ∈ c :: rest.take length, kind d = true := fun hle d hd =>
        of_mem_take hle (h ▸ hcons ▸ hd)
      rw [hcons]
      cases hlower : isLower c with
      | true => exact .letters (.small (htaken (wordLength_of_isLower hlower).le))
      | false =>
          cases hupper : isUpper c with
          | true =>
              rw [wordLength_of_isUpper hupper] at hlength htaken
              split at hlength
              · rename_i hnone
                rw [if_pos hnone] at htaken
                exact .letters (.capitals (htaken (capitalsInWord_le _ _)))
              · rw [← Nat.succ.inj hlength]
                exact .letters (.capital hupper fun d hd => of_mem_take le_rfl hd)
          | false =>
              have hdigit : c.isDigit = true := by
                by_contra hother
                simp only [wordLength, hlower, hupper, hother, Bool.false_eq_true, if_false] at hlength
                exact Nat.succ_ne_zero _ hlength.symm
              exact .digits (htaken (wordLength_of_isDigit hdigit).le)

end Lengths

section Words

variable {word : List Char}

theorem splitWords_of_gap {c : Char} (h : isWordChar c = false) (rest : List Char) (fuel : Nat) :
    splitWords (c :: rest) (fuel + 1) = splitWords rest fuel := by
  simp only [splitWords, wordLength_of_gap h, if_true]

theorem splitWords_of_isWordChar {c : Char} (h : isWordChar c = true) (rest : List Char) (fuel : Nat) :
    splitWords (c :: rest) (fuel + 1) =
      (c :: rest).take (wordLength (c :: rest)) ::
        splitWords ((c :: rest).drop (wordLength (c :: rest))) fuel := by
  simp only [splitWords, wordLength_ne_zero h _, if_false]

/-- A word that ends is the first one of a text. -/
theorem splitWords_append {behind : List Char} (h : IsWord word) (hbehind : EndsWord behind) (fuel : Nat) :
    splitWords (word ++ behind) (fuel + 1) = word :: splitWords behind fuel := by
  have hlength := h.wordLength hbehind
  have hall := h.isWordChar
  cases word with
  | nil => exact absurd rfl h.ne_nil
  | cons c rest =>
      rw [List.cons_append, splitWords_of_isWordChar (hall c List.mem_cons_self), ← List.cons_append, hlength,
        List.take_left, List.drop_left]

theorem splitWords_gaps {chars : List Char} (h : AreGaps chars) (fuel : Nat) :
    splitWords chars fuel = [] := by
  induction fuel generalizing chars with
  | zero => rfl
  | succ fuel ih =>
      cases chars with
      | nil => rfl
      | cons c rest =>
          obtain ⟨hc, hrest⟩ := List.forall_mem_cons.mp h
          rw [splitWords_of_gap hc, ih hrest]

/-- The words of a text begin behind the gaps at its start. -/
theorem splitWords_gaps_append {gaps : List Char} (h : AreGaps gaps) (chars : List Char) (fuel : Nat) :
    splitWords (gaps ++ chars) (gaps.length + fuel) = splitWords chars fuel := by
  induction gaps with
  | nil => rw [List.nil_append, List.length_nil, Nat.zero_add]
  | cons c rest ih =>
      obtain ⟨hc, hrest⟩ := List.forall_mem_cons.mp h
      rw [List.cons_append, List.length_cons, Nat.add_right_comm, splitWords_of_gap hc, ih hrest]

/-- A text without words has gaps only. -/
theorem areGaps_of_splitWords {chars : List Char} {fuel : Nat} (hfuel : chars.length ≤ fuel)
    (h : splitWords chars fuel = []) : AreGaps chars := by
  induction fuel generalizing chars with
  | zero =>
      rw [List.eq_nil_of_length_eq_zero (Nat.le_zero.mp hfuel)]
      exact List.forall_mem_nil _
  | succ fuel ih =>
      cases chars with
      | nil => exact List.forall_mem_nil _
      | cons c rest =>
          cases hc : isWordChar c with
          | true =>
              rw [splitWords_of_isWordChar hc] at h
              cases h
          | false =>
              rw [splitWords_of_gap hc] at h
              exact List.forall_mem_cons.mpr ⟨hc, ih (Nat.le_of_succ_le_succ hfuel) h⟩

end Words

/-- What a word contributes to the name of a class. -/
def titled (word : List Char) : List Char := (capitalise (String.ofList (word.map Char.toLower))).toList

theorem titled_cons {c : Char} (hc : isWordChar c = true) {rest : List Char}
    (hrest : ∀ d ∈ rest, isWordChar d = true) :
    titled (c :: rest) = c.toUpper :: rest.map Char.toLower := by
  simp [titled, capitalise, toUpper_toLower hc, map_toLower_map_toLower hrest]

/-- The name of a class is made from the words of the core, and of nothing behind it. -/
theorem exists_toList_className (name : String) :
    ∃ front behind fuel, name.toList = front ++ ((core name).toList ++ behind) ∧ AreGaps front ∧
      AreGaps behind ∧ ((core name).toList ++ behind).length ≤ fuel ∧
      (className name).toList = (splitWords ((core name).toList ++ behind) fuel).flatMap titled := by
  obtain ⟨front, behind, hname, hfront, hbehind⟩ := exists_eq_core name
  refine ⟨front, behind, ((core name).toList ++ behind).length, hname, hfront, hbehind, le_rfl, ?_⟩
  rw [className, pascalCase, words, String.toList_join, List.map_map, List.flatMap_map, hname,
    List.length_append, splitWords_gaps_append hfront]
  rfl

/-- Words that are titled begin with a capital or a digit. -/
theorem exists_titled_eq_cons {chars word : List Char} {fuel : Nat} (h : word ∈ splitWords chars fuel) :
    ∃ c rest, titled word = c :: rest ∧ isLower c = false := by
  have hall := fun d => @isWordChar_of_mem_splitWords chars word fuel h d
  cases hword : word with
  | nil => exact absurd hword (exists_take_of_mem_splitWords h).1
  | cons d rest =>
      rw [hword] at hall
      obtain ⟨hd, hrest⟩ := List.forall_mem_cons.mp hall
      exact ⟨_, _, titled_cons hd hrest, not_isLower_toUpper hd⟩

/-- A single capital at the start comes from a single word. -/
theorem areGaps_of_flatMap_titled {text : List Char} {fuel : Nat} {c d : Char} {rest : List Char}
    (hfuel : text.length ≤ fuel) (hhead : text.head? = some d) (hd : isWordChar d = true)
    (hrest : ∀ d ∈ rest, isLower d = true) (h : (splitWords text fuel).flatMap titled = c :: rest) :
    AreGaps (text.drop (wordLength text)) ∧ titled (text.take (wordLength text)) = c :: rest := by
  cases text with
  | nil => cases hhead
  | cons e more =>
      obtain rfl := Option.some.inj hhead
      cases fuel with
      | zero => exact absurd hfuel (Nat.not_succ_le_zero _)
      | succ fuel =>
          have hlength : ((e :: more).drop (wordLength (e :: more))).length ≤ fuel := by
            have hpos := wordLength_ne_zero hd more
            rw [List.length_drop]
            omega
          rw [splitWords_of_isWordChar hd, List.flatMap_cons] at h
          cases hothers : splitWords ((e :: more).drop (wordLength (e :: more))) fuel with
          | nil =>
              rw [hothers, List.flatMap_nil, List.append_nil] at h
              exact ⟨areGaps_of_splitWords hlength hothers, h⟩
          | cons word others =>
              have hmem : word ∈ splitWords ((e :: more).drop (wordLength (e :: more))) fuel := by
                rw [hothers]
                exact List.mem_cons_self
              obtain ⟨first, behind, htitled, hfirst⟩ := exists_titled_eq_cons hmem
              have hword : (e :: more).take (wordLength (e :: more)) ∈
                  splitWords (e :: more) (fuel + 1) := by
                rw [splitWords_of_isWordChar hd]
                exact List.mem_cons_self
              obtain ⟨capital, small, hcapital, -⟩ := exists_titled_eq_cons hword
              rw [hothers, hcapital, List.flatMap_cons, htitled, List.cons_append] at h
              obtain ⟨-, h⟩ := List.cons.inj h
              rw [← h] at hrest
              rw [hrest first (by simp)] at hfirst
              cases hfirst

/-- The word with a capital that a class is named by, if it is one word. -/
theorem toList_className_eq_iff {name : String} {c : Char} {rest : List Char}
    (hword : ∀ d ∈ c :: rest, isLower d = true) :
    (className name).toList = c.toUpper :: rest ↔
      IsOneWord (core name).toList ∧ (core name).toList.map Char.toLower = c :: rest := by
  obtain ⟨front, behind, fuel, hname, hfront, hbehind, hfuel, hclass⟩ := exists_toList_className name
  obtain ⟨hc, hrest⟩ := List.forall_mem_cons.mp hword
  rw [hclass]
  constructor
  · intro h
    have hhead := @isWordChar_of_mem_head?_core name
    cases hcore : (core name).toList with
    | nil =>
        rw [hcore, List.nil_append, splitWords_gaps hbehind] at h
        cases h
    | cons d more =>
        have hd : isWordChar d = true := hhead (by rw [hcore]; rfl)
        obtain ⟨hgaps, htitled⟩ := areGaps_of_flatMap_titled hfuel (by rw [hcore]; rfl) hd hrest h
        have htake := (congrArg String.toList (core_eq
          (hname.trans (congrArg (front ++ ·) (List.take_append_drop _ _).symm)) hfront hgaps
            fun e => isWordChar_of_mem_word)).trans String.toList_ofList
        have hall : ∀ e ∈ (core name).toList, isWordChar e = true := by
          rw [htake]
          exact fun e => isWordChar_of_mem_word
        rw [← htake, hcore] at htitled
        rw [hcore] at hall
        obtain ⟨-, hmore⟩ := List.forall_mem_cons.mp hall
        rw [titled_cons hd hmore] at htitled
        obtain ⟨hfirst, hothers⟩ := List.cons.inj htitled
        have hlower : (d :: more).map Char.toLower = c :: rest := by
          rw [List.map_cons, hothers, ← toLower_toUpper hd, hfirst,
            toLower_toUpper (isWordChar_of_isLower hc), toLower_of_isLower hc]
        refine ⟨hcore ▸ (isWord_of_wordLength htake (by simp [hcore])).isOneWord ?_, hlower⟩
        rw [hcore]
        exact fun e he => isLower_or_isUpper (hall e he) (hword _ (hlower ▸ List.mem_map_of_mem he))
  · rintro ⟨hone, hlower⟩
    have hall := hone.isWordChar
    generalize (core name).toList = chars at hone hlower hall hfuel ⊢
    cases chars with
    | nil => cases hlower
    | cons d more =>
        obtain ⟨hd, hmore⟩ := List.forall_mem_cons.mp hall
        obtain ⟨rfl, rfl⟩ := List.cons.inj hlower
        cases fuel with
        | zero => exact absurd hfuel (Nat.not_succ_le_zero _)
        | succ fuel =>
            rw [splitWords_append (.letters hone) hbehind.endsWord, splitWords_gaps hbehind,
              List.flatMap_singleton, titled_cons hd hmore, toUpper_toLower hd]

end ApiScaffold.Naming
