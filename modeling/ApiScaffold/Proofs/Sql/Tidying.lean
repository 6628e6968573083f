import Mathlib
import ApiScaffold.Sql.Definition

/-! What tidying does to a statement. It goes through the lines of the whole text and knows nothing of quotes,
so it changes what stands between them as it changes the layout. Texts that come through as they were are
those without tabs, whose lines end in line feeds alone and without blanks. -/

namespace ApiScaffold

namespace Text

/-! ### Blanks at the ends -/

section Trimming

variable {drop : Char → Bool} {chars : List Char}

theorem dropWhile_eq_self (h : ∀ c ∈ chars.head?, drop c = false) : chars.dropWhile drop = chars := by
  cases chars with
  | nil => rfl
  | cons c chars => rw [List.dropWhile_cons, h c rfl, if_neg Bool.false_ne_true]

theorem trimEndChars_eq_self (h : ∀ c ∈ chars.getLast?, drop c = false) :
    trimEndChars drop chars = chars := by
  rw [trimEndChars, dropWhile_eq_self (by rwa [List.head?_reverse]), List.reverse_reverse]

theorem trimChars_eq_self (hhead : ∀ c ∈ chars.head?, drop c = false)
    (hlast : ∀ c ∈ chars.getLast?, drop c = false) : trimChars drop chars = chars := by
  rw [trimChars, dropWhile_eq_self hhead]
  exact trimEndChars_eq_self hlast

end Trimming

end Text

namespace Sql

open Text

/-- What becomes of characters behind given blanks: boundaries of lines are line feeds, and the blanks in
front of them are left out. -/
def settleFrom (blanks : List Char) : List Char → List Char
  | [] => blanks
  | c :: rest =>
    if c = '\r' && rest.head? == some '\n' then settleFrom blanks rest
    else if isLineBoundary c then '\n' :: settleFrom [] rest
    else if isBlank c then settleFrom (blanks ++ [c]) rest
    else blanks ++ c :: settleFrom [] rest

def expandTab (c : Char) : List Char := if c = '\t' then [' ', ' '] else [c]

/-- What becomes of a part of a statement that begins and ends beside characters that are not blank. -/
def tidyChars (s : List Char) : List Char := (settleFrom [] s).flatMap expandTab

/-- What becomes of a text in quotes. -/
def tidied (s : String) : String := String.ofList (tidyChars s.toList)

theorem isBlank_of_isLineBoundary {c : Char} (h : isLineBoundary c = true) : isBlank c = true := by
  simp only [isLineBoundary, isBlank, isWhiteSpace, Bool.or_eq_true, Bool.and_eq_true, decide_eq_true_eq,
    beq_iff_eq] at h ⊢
  omega

/-! ### Lines -/

/-- A carriage return in front of a line feed is passed over. -/
theorem splitLinesFrom_cons (line : List Char) (c : Char) (rest : List Char) :
    splitLinesFrom line (c :: rest) =
      if c = '\r' && rest.head? == some '\n' then splitLinesFrom line rest
      else if isLineBoundary c then line.reverse :: splitLinesFrom [] rest
      else splitLinesFrom (c :: line) rest := by
  have hfeed : isLineBoundary '\n' = true := by decide
  split
  · rename_i hboth
    simp only [Bool.and_eq_true, decide_eq_true_eq, beq_iff_eq] at hboth
    obtain ⟨rfl, hhead⟩ := hboth
    obtain ⟨others, rfl⟩ := List.head?_eq_some_iff.mp hhead
    rw [splitLinesFrom, splitLinesFrom, if_pos hfeed]
    rintro others' ⟨⟩
  · rename_i hapart
    rw [splitLinesFrom]
    rintro others rfl rfl
    simp at hapart

theorem splitLinesFrom_ne_nil {line rest : List Char} (h : rest ≠ []) : splitLinesFrom line rest ≠ [] := by
  induction rest generalizing line with
  | nil => exact absurd rfl h
  | cons c rest ih =>
      rw [splitLinesFrom_cons]
      split
      · rename_i hboth
        have hne : rest ≠ [] := by
          rintro rfl
          simp at hboth
        exact ih hne
      · split
        · exact List.cons_ne_nil _ _
        · cases rest with
          | nil => simp [splitLinesFrom]
          | cons d rest => exact ih (List.cons_ne_nil _ _)

/-- The lines of a text that ends in no blank, trimmed and joined, given the characters of the line under
way from the last to the first. -/
theorem intercalate_trimmed {line rest : List Char} (hne : rest ≠ [])
    (hlast : ∀ c ∈ rest.getLast?, isBlank c = false) :
    List.intercalate ['\n'] ((splitLinesFrom line rest).map (trimEndChars isBlank)) =
      (line.dropWhile isBlank).reverse ++ settleFrom (line.takeWhile isBlank).reverse rest := by
  induction rest generalizing line with
  | nil => exact absurd rfl hne
  | cons c rest ih =>
      have hstep : rest ≠ [] → ∀ line, List.intercalate ['\n']
          ((splitLinesFrom line rest).map (trimEndChars isBlank)) =
            (line.dropWhile isBlank).reverse ++ settleFrom (line.takeWhile isBlank).reverse rest :=
        fun hrest line => ih hrest (by rwa [List.getLast?_cons_of_ne_nil hrest] at hlast)
      rw [splitLinesFrom_cons, settleFrom]
      split
      · rename_i hboth
        refine hstep ?_ line
        rintro rfl
        simp at hboth
      · split
        · rename_i hboundary
          have hrest : rest ≠ [] := by
            rintro rfl
            have hfirm := hlast c rfl
            rw [isBlank_of_isLineBoundary hboundary] at hfirm
            cases hfirm
          obtain ⟨first, others, hlines⟩ := List.exists_cons_of_ne_nil
            (@splitLinesFrom_ne_nil [] rest hrest)
          have hjoined := hstep hrest []
          rw [hlines] at hjoined ⊢
          rw [List.map_cons, List.map_cons, List.intercalate_cons_cons, ← List.map_cons, hjoined,
            trimEndChars, List.reverse_reverse]
          simp
        · by_cases hrest : rest = []
          · subst hrest
            have hfirm : isBlank c = false := hlast c rfl
            have hline : line.reverse = (line.dropWhile isBlank).reverse ++ (line.takeWhile isBlank).reverse := by
              rw [← List.reverse_append, List.takeWhile_append_dropWhile]
            simp [splitLinesFrom, trimEndChars, settleFrom, hfirm, hline]
          · rw [hstep hrest]
            cases hblank : isBlank c with
            | true => simp [hblank]
            | false =>
                have hline : line.reverse =
                    (line.dropWhile isBlank).reverse ++ (line.takeWhile isBlank).reverse := by
                  rw [← List.reverse_append, List.takeWhile_append_dropWhile]
                simp [hblank, hline]

/-- A statement that begins and ends with no blank is tidied as its characters are. -/
theorem tidy_toList {sql : String} (hfirst : ∀ c ∈ sql.toList.head?, isBlank c = false)
    (hlast : ∀ c ∈ sql.toList.getLast?, isBlank c = false) : (tidy sql).toList = tidyChars sql.toList := by
  rw [tidy, String.toList_ofList, trimChars_eq_self hfirst hlast, tidyChars]
  by_cases hempty : sql.toList = []
  · rw [hempty]
    rfl
  · have hlines := @intercalate_trimmed [] sql.toList hempty hlast
    rw [List.dropWhile_nil, List.takeWhile_nil, List.reverse_nil, List.nil_append] at hlines
    rw [splitLines, ← hlines]
    rfl

/-! ### Parts of a statement -/

/-- A character that is not blank ends what is before it and begins anew. -/
theorem settleFrom_append {blanks before behind : List Char} {c : Char} (hfirm : isBlank c = false) :
    settleFrom blanks (before ++ c :: behind) = settleFrom blanks before ++ c :: settleFrom [] behind := by
  have hboundary : isLineBoundary c = false := by
    by_contra h
    rw [isBlank_of_isLineBoundary (Bool.eq_true_of_not_eq_false h)] at hfirm
    cases hfirm
  have hfeed : c ≠ '\n' := by
    rintro rfl
    cases hboundary
  have hreturn : c ≠ '\r' := by
    rintro rfl
    cases hboundary
  induction before generalizing blanks with
  | nil => simp [settleFrom, hboundary, hfirm, hreturn]
  | cons d before ih =>
      have hhead : ((before ++ c :: behind).head? == some '\n') = (before.head? == some '\n') := by
        cases before with
        | nil => simp [hfeed]
        | cons e before => rfl
      rw [List.cons_append, settleFrom, hhead, settleFrom]
      split
      · exact ih
      · split
        · rw [ih, List.cons_append]
        · split
          · exact ih
          · rw [ih, List.append_assoc, List.cons_append]

/-- Parts of a statement are tidied one by one where they meet at a character that is not blank. -/
theorem tidyChars_append {before behind : List Char}
    (hfirm : before.getLast?.any (fun c => !isBlank c) = true ∨ behind.head?.any (fun c => !isBlank c) = true) :
    tidyChars (before ++ behind) = tidyChars before ++ tidyChars behind := by
  have hsplit : settleFrom [] (before ++ behind) = settleFrom [] before ++ settleFrom [] behind := by
    rcases hfirm with hlast | hfirst
    · obtain ⟨c, hc, hfirm⟩ := (Option.any_eq_true _ _).mp hlast
      obtain ⟨front, rfl⟩ := List.getLast?_eq_some_iff.mp hc
      have hfirm : isBlank c = false := by simpa using hfirm
      rw [List.append_assoc, List.singleton_append, settleFrom_append hfirm, settleFrom_append hfirm,
        settleFrom, List.append_assoc, List.singleton_append]
    · obtain ⟨c, hc, hfirm⟩ := (Option.any_eq_true _ _).mp hfirst
      obtain ⟨rest, rfl⟩ := List.head?_eq_some_iff.mp hc
      have hfirm : isBlank c = false := by simpa using hfirm
      have hbehind := @settleFrom_append [] [] rest c hfirm
      rw [List.nil_append, settleFrom, List.nil_append] at hbehind
      rw [settleFrom_append hfirm, hbehind]
  rw [tidyChars, hsplit, List.flatMap_append, tidyChars, tidyChars]

theorem settleFrom_of_firm {blanks s : List Char} (h : ∀ c ∈ s, isBlank c = false) :
    settleFrom blanks s = blanks ++ s := by
  induction s generalizing blanks with
  | nil => rw [settleFrom, List.append_nil]
  | cons c rest ih =>
      obtain ⟨hc, hrest⟩ := List.forall_mem_cons.mp h
      have hcut := @settleFrom_append blanks [] rest c hc
      rwa [List.nil_append, settleFrom, ih hrest, List.nil_append] at hcut

theorem flatMap_expandTab {s : List Char} (h : '\t' ∉ s) : s.flatMap expandTab = s := by
  have heach : ∀ c ∈ s, expandTab c = [c] := by
    intro c hc
    rw [expandTab, if_neg]
    rintro rfl
    exact h hc
  rw [List.flatMap_congr heach, List.flatMap_singleton']

/-- A part without blanks is tidy. -/
theorem tidyChars_of_firm {s : List Char} (h : ∀ c ∈ s, isBlank c = false) : tidyChars s = s := by
  have htab : '\t' ∉ s := fun hmem => absurd (h _ hmem) (by decide)
  rw [tidyChars, settleFrom_of_firm h, List.nil_append, flatMap_expandTab htab]

/-! ### Quotes -/

section Quotes

variable {mark : Char}

theorem head?_doubled (s : List Char) : (doubled mark s).head? = s.head? := by
  cases s with
  | nil => rfl
  | cons c rest =>
      rw [doubled, List.flatMap_cons]
      split
      · rename_i hmark
        rw [hmark]
        rfl
      · rfl

theorem doubled_append (first rest : List Char) :
    doubled mark (first ++ rest) = doubled mark first ++ doubled mark rest := List.flatMap_append

theorem doubled_of_not_mem {s : List Char} (h : mark ∉ s) : doubled mark s = s := by
  have heach : ∀ c ∈ s, (if c = mark then [mark, mark] else [c]) = [c] := by
    intro c hc
    rw [if_neg]
    rintro rfl
    exact h hc
  rw [doubled, List.flatMap_congr heach, List.flatMap_singleton']

theorem settleFrom_doubled (hmark : isBlank mark = false) {blanks : List Char} (hblanks : mark ∉ blanks)
    (s : List Char) : settleFrom blanks (doubled mark s) = doubled mark (settleFrom blanks s) := by
  induction s generalizing blanks with
  | nil => exact (doubled_of_not_mem hblanks).symm
  | cons c rest ih =>
      have hnone : mark ∉ ([] : List Char) := List.not_mem_nil
      by_cases hc : c = mark
      · subst hc
        have hcut := @settleFrom_append blanks [] rest c hmark
        rw [List.nil_append, settleFrom] at hcut
        have htwice : doubled c (c :: rest) = c :: c :: doubled c rest := by simp [doubled]
        have hpair : doubled c (c :: settleFrom [] rest) = c :: c :: doubled c (settleFrom [] rest) := by
          simp [doubled]
        have hcut' := @settleFrom_append blanks [] (c :: doubled c rest) c hmark
        have hcut'' := @settleFrom_append [] [] (doubled c rest) c hmark
        rw [List.nil_append, settleFrom] at hcut' hcut''
        rw [hcut, htwice, hcut', hcut'', doubled_append, doubled_of_not_mem hblanks, hpair, ih hnone,
          List.nil_append]
      · have honce : ∀ s, doubled mark (c :: s) = c :: doubled mark s := by simp [doubled, hc]
        rw [honce, settleFrom, settleFrom, head?_doubled]
        split
        · exact ih hblanks
        · split
          · have hfeed : mark ≠ '\n' := by
              rintro rfl
              cases hmark
            rw [ih hnone]
            simp [doubled, Ne.symm hfeed]
          · split
            · refine ih fun hmem => ?_
              rcases List.mem_append.mp hmem with hold | hnew
              · exact hblanks hold
              · exact hc (List.mem_singleton.mp hnew).symm
            · rw [doubled_append, doubled_of_not_mem hblanks, honce, ih hnone]

/-- Tidying does not see quotes: it changes a text between them in the same way as any other. -/
theorem tidyChars_doubled (hmark : isBlank mark = false) (s : List Char) :
    tidyChars (doubled mark s) = doubled mark (tidyChars s) := by
  have htab : mark ≠ '\t' := by
    rintro rfl
    cases hmark
  have hblank : mark ≠ ' ' := by
    rintro rfl
    cases hmark
  rw [tidyChars, settleFrom_doubled hmark List.not_mem_nil, doubled, List.flatMap_assoc, tidyChars, doubled,
    List.flatMap_assoc]
  refine List.flatMap_congr fun c _ => ?_
  by_cases hc : c = mark
  · simp [hc, expandTab, htab]
  · by_cases hother : c = '\t'
    · simp [hother, expandTab, Ne.symm htab, Ne.symm hblank]
    · simp [hc, expandTab, hother]

theorem tidyChars_enclosed (hmark : isBlank mark = false) (s : String) :
    tidyChars (enclosed mark s).toList = (enclosed mark (tidied s)).toList := by
  have hsingle : tidyChars [mark] = [mark] := tidyChars_of_firm (by simpa using hmark)
  rw [enclosed, enclosed, String.toList_ofList, String.toList_ofList, List.cons_append, ← List.singleton_append,
    tidyChars_append (Or.inl (by simp [hmark])), tidyChars_append (Or.inr (by simp [hmark])), hsingle,
    tidyChars_doubled hmark, tidied, String.toList_ofList]
  rfl

end Quotes

/-! ### Tidy texts -/

/-- A text that has nothing to be tidied: no tabs, no boundaries of lines but line feeds, and no blanks in
front of these. -/
structure IsSettled (s : List Char) : Prop where
  no_tab : '\t' ∉ s
  boundaries : ∀ c ∈ s, isLineBoundary c = true → c = '\n'
  ends : s.IsChain fun a b => b = '\n' → isBlank a = true → a = '\n'

instance (s : List Char) : Decidable (IsSettled s) :=
  have : Decidable (∀ c ∈ s, isLineBoundary c = true → c = '\n') := s.decidableBAll _
  decidable_of_iff (_ ∧ _ ∧ _) ⟨fun ⟨no_tab, boundaries, ends⟩ => ⟨no_tab, boundaries, ends⟩,
    fun ⟨no_tab, boundaries, ends⟩ => ⟨no_tab, boundaries, ends⟩⟩

theorem IsSettled.of_append {first rest : List Char} (h : IsSettled (first ++ rest)) : IsSettled rest where
  no_tab := fun hmem => h.no_tab (List.mem_append_right _ hmem)
  boundaries := fun c hc => h.boundaries c (List.mem_append_right _ hc)
  ends := (List.isChain_append.mp h.ends).2.1

theorem settleFrom_of_isSettled {blanks s : List Char}
    (hblanks : ∀ c ∈ blanks, isBlank c = true ∧ isLineBoundary c = false) (h : IsSettled (blanks ++ s)) :
    settleFrom blanks s = blanks ++ s := by
  induction s generalizing blanks with
  | nil => rw [settleFrom, List.append_nil]
  | cons c rest ih =>
      have hnone : ∀ c ∈ ([] : List Char), isBlank c = true ∧ isLineBoundary c = false :=
        List.forall_mem_nil _
      have hbehind : IsSettled ([c] ++ rest) := h.of_append
      have hrest : IsSettled ([] ++ rest) := hbehind.of_append
      have hmem : c ∈ blanks ++ c :: rest := by simp
      have hreturn : c ≠ '\r' := by
        rintro rfl
        exact absurd (h.boundaries _ hmem (by decide)) (by decide)
      rw [settleFrom]
      simp only [hreturn, decide_false, Bool.false_and, Bool.false_eq_true, if_false]
      split
      · rename_i hboundary
        obtain rfl := h.boundaries c hmem hboundary
        -- A blank in front of the line feed would be one too many.
        have hempty : blanks = [] := by
          by_contra hne
          obtain ⟨last, hlast⟩ := Option.isSome_iff_exists.mp (List.getLast?_isSome.mpr hne)
          obtain ⟨hblank, hinner⟩ := hblanks last (List.mem_of_getLast? hlast)
          have hfeed := (List.isChain_append.mp h.ends).2.2 last hlast '\n' rfl rfl hblank
          rw [hfeed] at hinner
          cases hinner
        rw [hempty, ih hnone hrest]
        rfl
      · rename_i hinner
        split
        · rename_i hblank
          rw [ih]
          · simp
          · intro d hd
            rcases List.mem_append.mp hd with hold | hnew
            · exact hblanks d hold
            · rw [List.mem_singleton.mp hnew]
              exact ⟨hblank, by simpa using hinner⟩
          · simpa using h
        · rw [ih hnone hrest]
          rfl

theorem isChain_of_not_mem {s : List Char} (h : '\n' ∉ s) :
    s.IsChain fun a b => b = '\n' → isBlank a = true → a = '\n' := by
  induction s with
  | nil => exact List.isChain_nil
  | cons c rest ih =>
      rw [List.mem_cons, not_or] at h
      refine List.isChain_cons.mpr ⟨fun d hd heq => absurd (List.mem_of_mem_head? hd) ?_, ih h.2⟩
      exact heq ▸ h.2

/-- Whatever is settled has its lines in order. -/
theorem settleFrom_ends {blanks : List Char}
    (hblanks : ∀ c ∈ blanks, isBlank c = true ∧ isLineBoundary c = false) (s : List Char) :
    (∀ c ∈ settleFrom blanks s, isLineBoundary c = true → c = '\n') ∧
      (settleFrom blanks s).IsChain fun a b => b = '\n' → isBlank a = true → a = '\n' := by
  have hnone : ∀ c ∈ ([] : List Char), isBlank c = true ∧ isLineBoundary c = false :=
    List.forall_mem_nil _
  have hold : ∀ c ∈ blanks, isLineBoundary c = true → c = '\n' := by
    intro c hc hboundary
    rw [(hblanks c hc).2] at hboundary
    cases hboundary
  have hchain : blanks.IsChain fun a b => b = '\n' → isBlank a = true → a = '\n' := by
    refine isChain_of_not_mem fun hmem => ?_
    exact absurd (hblanks _ hmem).2 (by decide)
  induction s generalizing blanks with
  | nil => exact ⟨hold, hchain⟩
  | cons c rest ih =>
      obtain ⟨hinner, hlines⟩ := ih hnone (List.forall_mem_nil _) List.isChain_nil
      rw [settleFrom]
      split
      · exact ih hblanks hold hchain
      · split
        · refine ⟨List.forall_mem_cons.mpr ⟨fun _ => rfl, hinner⟩, List.isChain_cons.mpr ⟨?_, hlines⟩⟩
          exact fun _ _ _ _ => rfl
        · rename_i hboundary
          have hc : isLineBoundary c = false := by simpa using hboundary
          have hfeed : c ≠ '\n' := by
            rintro rfl
            cases hc
          split
          · rename_i hblank
            have hmore : ∀ d ∈ blanks ++ [c], isBlank d = true ∧ isLineBoundary d = false := by
              intro d hd
              rcases List.mem_append.mp hd with hmem | hnew
              · exact hblanks d hmem
              · exact List.mem_singleton.mp hnew ▸ ⟨hblank, hc⟩
            refine ih hmore (fun d hd hbound => ?_) (isChain_of_not_mem fun hmem => ?_)
            · rw [(hmore d hd).2] at hbound
              cases hbound
            · exact absurd (hmore _ hmem).2 (by decide)
          · rename_i hfirm
            refine ⟨List.forall_mem_append.mpr ⟨hold, List.forall_mem_cons.mpr ⟨?_, hinner⟩⟩, ?_⟩
            · exact fun hbound => absurd hbound hboundary
            · refine List.isChain_append.mpr ⟨hchain, List.isChain_cons.mpr ⟨?_, hlines⟩, ?_⟩
              · exact fun _ _ _ hblank => absurd hblank hfirm
              · rintro _ - d ⟨⟩ heq
                exact absurd heq hfeed

theorem mem_settleFrom {blanks s : List Char} {c : Char} (h : c ∈ settleFrom blanks s) :
    c ∈ blanks ∨ c ∈ s ∨ c = '\n' := by
  induction s generalizing blanks with
  | nil => exact Or.inl h
  | cons d rest ih =>
      rw [settleFrom] at h
      split at h
      · exact (ih h).imp_right (Or.imp_left (List.mem_cons_of_mem d))
      · split at h
        · rcases List.mem_cons.mp h with rfl | hrest
          · exact Or.inr (Or.inr rfl)
          · exact Or.inr (((ih hrest).resolve_left List.not_mem_nil).imp_left (List.mem_cons_of_mem d))
        · split at h
          · rcases ih h with hblanks | hothers
            · rcases List.mem_append.mp hblanks with hold | hnew
              · exact Or.inl hold
              · exact Or.inr (Or.inl (List.mem_singleton.mp hnew ▸ List.mem_cons_self))
            · exact Or.inr (hothers.imp_left (List.mem_cons_of_mem d))
          · rcases List.mem_append.mp h with hold | hmem
            · exact Or.inl hold
            · rcases List.mem_cons.mp hmem with rfl | hrest
              · exact Or.inr (Or.inl List.mem_cons_self)
              · exact Or.inr (((ih hrest).resolve_left List.not_mem_nil).imp_left (List.mem_cons_of_mem d))

theorem tab_not_mem_tidyChars (s : List Char) : '\t' ∉ tidyChars s := by
  rw [tidyChars, List.mem_flatMap]
  rintro ⟨c, -, hc⟩
  rw [expandTab] at hc
  split at hc
  · simp at hc
  · rename_i hne
    exact hne (List.mem_singleton.mp hc).symm

/-- **What tidying leaves alone.** A text comes through as it was exactly if it is tidy. -/
theorem tidyChars_eq_self_iff {s : List Char} : tidyChars s = s ↔ IsSettled s := by
  constructor
  · intro h
    have htab : '\t' ∉ s := h ▸ tab_not_mem_tidyChars s
    have hsettled : settleFrom [] s = s := by
      have hnone : '\t' ∉ settleFrom [] s := fun hmem => by
        rcases mem_settleFrom hmem with hnil | hs | hfeed
        · cases hnil
        · exact htab hs
        · cases hfeed
      rwa [tidyChars, flatMap_expandTab hnone] at h
    obtain ⟨hboundaries, hends⟩ := settleFrom_ends (List.forall_mem_nil _) s
    rw [hsettled] at hboundaries hends
    exact ⟨htab, hboundaries, hends⟩
  · intro h
    rw [tidyChars, settleFrom_of_isSettled (List.forall_mem_nil _) h, List.nil_append,
      flatMap_expandTab h.no_tab]

theorem tidied_eq_self_iff {s : String} : tidied s = s ↔ IsSettled s.toList := by
  rw [tidied, ← tidyChars_eq_self_iff, ← String.toList_inj, String.toList_ofList]

end Sql

end ApiScaffold
