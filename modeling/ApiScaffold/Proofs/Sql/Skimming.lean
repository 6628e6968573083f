import Mathlib
import ApiScaffold.Proofs.Naming.Identifier
import ApiScaffold.Proofs.Sql.Tokens

/-! Statements, skimmed. Whatever is neither blank nor a mark belongs to a word here, so that numbers with
points and signs are words as well and every text has tokens. Quotes and comments are read as ever. -/

namespace ApiScaffold.Sql.Skimming

open Reading (Quote isSpace mark?)

/-- What is under way, with the characters that were read of it. -/
inductive Mode where
  | between
  | comment
  | word (read : List Char)
  | quoted (quote : Quote) (read : List Char)
  | closing (quote : Quote) (read : List Char)
  deriving DecidableEq, Repr

/-- The tokens so far, and what is under way. -/
structure Skim where
  tokens : List Token
  mode : Mode
  deriving DecidableEq, Repr

/-- A character at which words end, and texts and names in quotes behind their closing mark. -/
def isBreak (c : Char) : Bool := isSpace c || (mark? c).isSome

/-- A character that can stand in a word. -/
def isBare (c : Char) : Bool := !isBreak c && c != '\'' && c != '"'

/-- Reads the first character of a token, or one between tokens. -/
def start (tokens : List Token) (c : Char) : Skim :=
  if isSpace c then ⟨tokens, .between⟩
  else if c = '\'' then ⟨tokens, .quoted .text []⟩
  else if c = '"' then ⟨tokens, .quoted .name []⟩
  else
    match mark? c with
    | some token => ⟨tokens ++ [token], .between⟩
    | none => ⟨tokens, .word [c]⟩

/-- The word that was read, if there is one. -/
def wordOf (read : List Char) : List Token := if read.isEmpty then [] else [.word (String.ofList read)]

/-- Reads a character. Two hyphens begin a comment, also at the end of a word. -/
def step (skim : Skim) (c : Char) : Skim :=
  match skim.mode with
  | .between => start skim.tokens c
  | .comment => if c = '\n' then ⟨skim.tokens, .between⟩ else skim
  | .word read =>
    if c = '-' && read.getLast? == some '-' then ⟨skim.tokens ++ wordOf read.dropLast, .comment⟩
    else if isBare c then ⟨skim.tokens, .word (read ++ [c])⟩
    else start (skim.tokens ++ [.word (String.ofList read)]) c
  | .quoted quote read =>
    ⟨skim.tokens, if c = quote.mark then .closing quote read else .quoted quote (read ++ [c])⟩
  | .closing quote read =>
    if c = quote.mark then ⟨skim.tokens, .quoted quote (read ++ [c])⟩
    else start (skim.tokens ++ [quote.token read]) c

/-- The token that is complete if the text ends here. -/
def Mode.due : Mode → List Token
  | .between | .comment | .quoted _ _ => []
  | .word read => wordOf read
  | .closing quote read => [quote.token read]

/-- The tokens of a text. -/
def read (s : String) : List Token :=
  let skim := s.toList.foldl step ⟨[], .between⟩
  skim.tokens ++ skim.mode.due

/-! ### Parts of a text -/

/-- A text that makes up tokens and is complete. -/
def Whole (chars : List Char) (tokens : List Token) : Prop :=
  ∀ before, chars.foldl step ⟨before, .between⟩ = ⟨before ++ tokens, .between⟩

/-- A text that makes up tokens, the last of which ends with the next break. -/
def Reads (chars : List Char) (tokens : List Token) : Prop :=
  ∀ before c, isBreak c = true →
    step (chars.foldl step ⟨before, .between⟩) c = start (before ++ tokens) c

section Parts

variable {chars rest : List Char} {tokens others : List Token}

theorem Whole.nil : Whole [] [] := fun before => by rw [List.append_nil]; rfl

theorem Whole.append (h : Whole chars tokens) (hrest : Whole rest others) :
    Whole (chars ++ rest) (tokens ++ others) := by
  intro before
  rw [List.foldl_append, h, hrest, List.append_assoc]

theorem Whole.reads (h : Whole chars tokens) (hrest : Reads rest others) :
    Reads (chars ++ rest) (tokens ++ others) := by
  intro before c hc
  rw [List.foldl_append, h, hrest _ c hc, List.append_assoc]

/-- What is behind a break is read as if it stood alone. -/
theorem Reads.foldl (h : Reads chars tokens) {c : Char} (hc : isBreak c = true) (before : List Token) :
    (chars ++ c :: rest).foldl step ⟨before, .between⟩ =
      (c :: rest).foldl step ⟨before ++ tokens, .between⟩ := by
  rw [List.foldl_append, List.foldl_cons, h before c hc, List.foldl_cons]
  rfl

theorem Reads.whole (h : Reads chars tokens) {c : Char} (hc : isBreak c = true)
    (hrest : Whole (c :: rest) others) : Whole (chars ++ c :: rest) (tokens ++ others) := by
  intro before
  rw [h.foldl hc, hrest, List.append_assoc]

theorem Reads.append (h : Reads chars tokens) {c : Char} (hc : isBreak c = true)
    (hrest : Reads (c :: rest) others) : Reads (chars ++ c :: rest) (tokens ++ others) := by
  intro before d hd
  rw [h.foldl hc, hrest _ d hd, List.append_assoc]

theorem Whole.flatMap {α : Type} {items : List α} {text : α → List Char} {group : α → List Token}
    (h : ∀ item ∈ items, Whole (text item) (group item)) :
    Whole (items.flatMap text) (items.flatMap group) := by
  induction items with
  | nil => exact Whole.nil
  | cons item rest ih =>
      obtain ⟨hitem, hrest⟩ := List.forall_mem_cons.mp h
      rw [List.flatMap_cons, List.flatMap_cons]
      exact hitem.append (ih hrest)

end Parts

/-! ### All of a text -/

theorem tokens_start (tokens : List Token) (c : Char) : tokens <+: (start tokens c).tokens := by
  unfold start
  split
  · exact List.prefix_rfl
  · split
    · exact List.prefix_rfl
    · split
      · exact List.prefix_rfl
      · split
        · exact List.prefix_append _ _
        · exact List.prefix_rfl

/-- Tokens that were read stay. -/
theorem tokens_step (skim : Skim) (c : Char) : skim.tokens <+: (step skim c).tokens := by
  unfold step
  split
  · exact tokens_start _ _
  · split <;> exact List.prefix_rfl
  · split
    · exact List.prefix_append _ _
    · split
      · exact List.prefix_rfl
      · exact (List.prefix_append _ _).trans (tokens_start _ _)
  · exact List.prefix_rfl
  · split
    · exact List.prefix_rfl
    · exact (List.prefix_append _ _).trans (tokens_start _ _)

theorem tokens_foldl (skim : Skim) (chars : List Char) :
    skim.tokens <+: (chars.foldl step skim).tokens := by
  induction chars generalizing skim with
  | nil => exact List.prefix_rfl
  | cons c rest ih => exact (tokens_step skim c).trans (ih _)

/-- A text begins with the tokens of what it begins with. -/
theorem Whole.prefix_read {front : List Char} {tokens : List Token} (h : Whole front tokens) {s : String}
    (hs : front <+: s.toList) : tokens <+: read s := by
  obtain ⟨rest, hrest⟩ := hs
  have hall : s.toList.foldl step ⟨[], .between⟩ = rest.foldl step ⟨tokens, .between⟩ := by
    rw [← hrest, List.foldl_append, h, List.nil_append]
  rw [read, hall]
  exact (tokens_foldl ⟨tokens, .between⟩ rest).trans (List.prefix_append _ _)

/-! ### Single tokens -/

/-- Words have no two hyphens in a row. -/
def IsCalm (chars : List Char) : Prop := chars.IsChain fun a b => a = '-' → b ≠ '-'

instance (chars : List Char) : Decidable (IsCalm chars) := inferInstanceAs (Decidable (List.IsChain _ _))

theorem isCalm_of_not_mem {chars : List Char} (h : '-' ∉ chars) : IsCalm chars := by
  induction chars with
  | nil => exact List.isChain_nil
  | cons c rest ih =>
      rw [List.mem_cons, not_or] at h
      exact List.isChain_cons.mpr ⟨fun _ _ heq => absurd heq.symm h.1, ih h.2⟩

theorem IsCalm.append {first rest : List Char} (h : IsCalm first) (hrest : IsCalm rest)
    (hhead : rest.head? ≠ some '-') : IsCalm (first ++ rest) := by
  refine List.isChain_append.mpr ⟨h, hrest, ?_⟩
  rintro c - d hd - rfl
  exact hhead hd

/-- A text that can stand as a word. -/
structure IsWord (chars : List Char) : Prop where
  ne_nil : chars ≠ []
  bare : ∀ c ∈ chars, isBare c = true
  calm : IsCalm chars

theorem isBreak_of_isBare {c : Char} (h : isBare c = true) : isBreak c = false := by
  simp only [isBare, Bool.and_eq_true, Bool.not_eq_true'] at h
  exact h.1.1

theorem foldl_word {tokens : List Token} (read : List Char) {chars : List Char}
    (hbare : ∀ c ∈ chars, isBare c = true) (hcalm : IsCalm (read ++ chars)) :
    chars.foldl step ⟨tokens, .word read⟩ = ⟨tokens, .word (read ++ chars)⟩ := by
  induction chars generalizing read with
  | nil => rw [List.append_nil]; rfl
  | cons c rest ih =>
      obtain ⟨hc, hrest⟩ := List.forall_mem_cons.mp hbare
      have hapart : (c = '-' && read.getLast? == some '-') = false := by
        by_contra hboth
        simp only [Bool.not_eq_false, Bool.and_eq_true, decide_eq_true_eq, beq_iff_eq] at hboth
        exact (List.isChain_append.mp hcalm).2.2 '-' hboth.2 c rfl rfl hboth.1
      have hstep : step ⟨tokens, .word read⟩ c = ⟨tokens, .word (read ++ [c])⟩ := by
        simp only [step, hapart, Bool.false_eq_true, if_false, hc, if_true]
      rw [List.foldl_cons, hstep, ih _ hrest (by simpa using hcalm)]
      simp

theorem IsWord.reads {chars : List Char} (h : IsWord chars) : Reads chars [.word (String.ofList chars)] := by
  intro before d hd
  cases chars with
  | nil => exact absurd rfl h.ne_nil
  | cons c rest =>
      obtain ⟨hc, hrest⟩ := List.forall_mem_cons.mp h.bare
      have hplain := hc
      simp only [isBare, isBreak, Bool.and_eq_true, Bool.not_eq_true', Bool.or_eq_false_iff,
        Option.isSome_eq_false_iff, Option.isNone_iff_eq_none, bne_iff_ne] at hplain
      obtain ⟨⟨⟨hspace, hmark⟩, htext⟩, hname⟩ := hplain
      have hstart : step ⟨before, .between⟩ c = ⟨before, .word [c]⟩ := by
        simp [step, start, hspace, htext, hname, hmark]
      have hhyphen : d ≠ '-' := by
        rintro rfl
        cases hd
      have hbare : isBare d = false := by
        by_contra hbare
        rw [isBreak_of_isBare (Bool.eq_true_of_not_eq_false hbare)] at hd
        cases hd
      rw [List.foldl_cons, hstart, foldl_word [c] hrest h.calm]
      simp [step, hhyphen, hbare]

theorem foldl_doubled (quote : Quote) {tokens : List Token} (read chars : List Char) :
    (doubled quote.mark chars).foldl step ⟨tokens, .quoted quote read⟩ =
      ⟨tokens, .quoted quote (read ++ chars)⟩ := by
  induction chars generalizing read with
  | nil => rw [List.append_nil]; rfl
  | cons c rest ih =>
      have ih := ih (read ++ [c])
      rw [List.append_assoc, List.singleton_append] at ih
      by_cases hmark : c = quote.mark
      · have htwice : doubled quote.mark (c :: rest) = c :: c :: doubled quote.mark rest := by
          simp [doubled, hmark]
        rw [htwice, List.foldl_cons, List.foldl_cons, ← ih]
        simp [step, hmark]
      · have honce : doubled quote.mark (c :: rest) = c :: doubled quote.mark rest := by
          simp [doubled, hmark]
        rw [honce, List.foldl_cons, ← ih]
        simp [step, hmark]

/-- What is enclosed is read as it was, whatever it contains. -/
theorem reads_enclosed (quote : Quote) (s : String) :
    Reads (enclosed quote.mark s).toList [quote.token s.toList] := by
  intro before c hc
  have hmark : isBreak quote.mark = false := by cases quote <;> decide
  have hne : c ≠ quote.mark := by
    rintro rfl
    rw [hmark] at hc
    cases hc
  have hstart : step ⟨before, .between⟩ quote.mark = ⟨before, .quoted quote []⟩ := by cases quote <;> rfl
  rw [enclosed, String.toList_ofList, List.cons_append, List.foldl_cons, hstart, List.foldl_append,
    foldl_doubled]
  simp [step, hne]

theorem foldl_comment {tokens : List Token} {chars : List Char} (h : '\n' ∉ chars) :
    chars.foldl step ⟨tokens, .comment⟩ = ⟨tokens, .comment⟩ := by
  induction chars with
  | nil => rfl
  | cons c rest ih =>
      rw [List.mem_cons, not_or] at h
      have hstep : step ⟨tokens, .comment⟩ c = ⟨tokens, .comment⟩ := by simp [step, Ne.symm h.1]
      rw [List.foldl_cons, hstep, ih h.2]

theorem whole_comment {chars : List Char} (h : '\n' ∉ chars) :
    Whole ('-' :: '-' :: chars ++ ['\n']) [] := by
  intro before
  have hopen : step (step ⟨before, .between⟩ '-') '-' = ⟨before, .comment⟩ := by
    simp [step, start, isSpace, mark?, wordOf]
  rw [List.cons_append, List.cons_append, List.foldl_cons, List.foldl_cons, hopen, List.foldl_append,
    foldl_comment h, List.append_nil]
  rfl

/-! ### Names -/

theorem isBare_of_isNameChar {c : Char} (h : Naming.isNameChar c = true) : isBare c = true := by
  have hne : ∀ d, Naming.isNameChar d = false → c ≠ d := by
    rintro d hd rfl
    rw [h] at hd
    cases hd
  have hspace : isSpace c = false := by
    simp only [isSpace, Bool.or_eq_false_iff, beq_eq_false_iff_ne]
    refine ⟨⟨⟨⟨?_, ?_⟩, ?_⟩, ?_⟩, ?_⟩ <;> exact hne _ (by decide)
  have hmark : mark? c = none := by
    rw [mark?, if_neg (hne _ (by decide)), if_neg (hne _ (by decide)), if_neg (hne _ (by decide)),
      if_neg (hne _ (by decide))]
  simp [isBare, isBreak, hspace, hmark, hne '\'' (by decide), hne '"' (by decide)]

theorem isWord_of_isPlain {name : String} (h : Naming.IsPlain name) (hne : name.toList ≠ []) :
    IsWord name.toList where
  ne_nil := hne
  bare := fun c hc => isBare_of_isNameChar (Naming.isPlain_iff.mp h c hc)
  calm := isCalm_of_not_mem (h.not_mem (by decide))

theorem reads_identifier {name : String} (h : Naming.IsPlain name) :
    Reads (identifier name).toList [nameToken name] := by
  rw [identifier, nameToken]
  split
  · have henclosed := reads_enclosed .name name
    rwa [Quote.token, String.ofList_toList] at henclosed
  · rename_i hbare
    have hne : name.toList ≠ [] := by
      intro hempty
      simp [needsQuotes, Naming.dropLineFeed, hempty] at hbare
    have hword := (isWord_of_isPlain h hne).reads
    rwa [String.ofList_toList] at hword

end ApiScaffold.Sql.Skimming
