import Mathlib
import ApiScaffold.Sql.Definition

/-! Tokens of SQL text. A text is read character by character: words, names in double quotes, texts in
single quotes, in which a mark that is written twice stands for itself, and comments up to the end of
their line. Whatever was enclosed in quotes is read back as it was. -/

namespace ApiScaffold.Sql

/-- A token: a word that stands for itself, a quoted name, a text, or a mark. -/
inductive Token where
  | word (s : String)
  | name (s : String)
  | text (s : String)
  | opens
  | closes
  | comma
  | ends
  deriving DecidableEq, Repr

namespace Reading

/-- What is enclosed in quotes. -/
inductive Quote where
  | text
  | name
  deriving DecidableEq, Repr

/-- The mark on both sides. -/
def Quote.mark : Quote → Char
  | .text => '\''
  | .name => '"'

/-- The token that is enclosed. -/
def Quote.token : Quote → List Char → Token
  | .text, read => .text (String.ofList read)
  | .name, read => .name (String.ofList read)

/-- What is under way, with the characters that were read of it. Behind a closing mark it is not known
whether the mark is doubled. -/
inductive State where
  | between
  | comment
  | dash
  | word (read : List Char)
  | quoted (quote : Quote) (read : List Char)
  | closing (quote : Quote) (read : List Char)
  deriving DecidableEq, Repr

/-- A character of bare words: letters, digits, and everything beyond ASCII. -/
def isWordChar (c : Char) : Bool := c.isAlphanum || c == '_' || c == '$' || 0x80 ≤ c.toNat

/-- A character between tokens. -/
def isSpace (c : Char) : Bool := c == ' ' || c == '\t' || c == '\n' || c == '\r' || c == '\x0c'

/-- The token of a mark. -/
def mark? (c : Char) : Option Token :=
  if c = '(' then some .opens
  else if c = ')' then some .closes
  else if c = ',' then some .comma
  else if c = ';' then some .ends
  else none

/-- Reads the first character of a token, or one between tokens. -/
def start (c : Char) : Option (List Token × State) :=
  if isSpace c then some ([], .between)
  else if c = '-' then some ([], .dash)
  else if c = '\'' then some ([], .quoted .text [])
  else if c = '"' then some ([], .quoted .name [])
  else if isWordChar c then some ([], .word [c])
  else (mark? c).map fun token => ([token], .between)

/-- Puts tokens in front of what was read. -/
def follow (tokens : List Token) (result : List Token × State) : List Token × State :=
  (tokens ++ result.1, result.2)

/-- Reads a character: gives the tokens that are complete then, and what is under way. -/
def step : State → Char → Option (List Token × State)
  | .between, c => start c
  | .comment, c => some ([], if c = '\n' then .between else .comment)
  | .dash, c =>
    if c = '-' then some ([], .comment) else if c.isDigit then some ([], .word ['-', c]) else none
  | .word read, c =>
    if isWordChar c then some ([], .word (read ++ [c]))
    else (start c).map (follow [.word (String.ofList read)])
  | .quoted quote read, c =>
    some ([], if c = quote.mark then .closing quote read else .quoted quote (read ++ [c]))
  | .closing quote read, c =>
    if c = quote.mark then some ([], .quoted quote (read ++ [c]))
    else (start c).map (follow [quote.token read])

/-- Reads characters one after another. -/
def scan : State → List Char → Option (List Token × State)
  | state, [] => some ([], state)
  | state, c :: rest => (step state c).bind fun result => (scan result.2 rest).map (follow result.1)

/-- The tokens that are complete if a token ends here. -/
def State.due : State → Option (List Token)
  | .between => some []
  | .word read => some [.word (String.ofList read)]
  | .closing quote read => some [quote.token read]
  | .comment | .dash | .quoted _ _ => none

/-- The tokens that are complete at the end of a text. -/
def State.final : State → Option (List Token)
  | .comment => some []
  | state => state.due

/-- The tokens of a text. -/
def read (s : String) : Option (List Token) :=
  (scan .between s.toList).bind fun result => result.2.final.map fun rest => result.1 ++ rest

/-! ### Parts of a text -/

theorem follow_nil : follow [] = id := rfl

theorem follow_follow (tokens others : List Token) :
    follow tokens ∘ follow others = follow (tokens ++ others) := by
  funext result
  rw [Function.comp_apply, follow, follow, follow, List.append_assoc]

theorem scan_append (state : State) (chars rest : List Char) :
    scan state (chars ++ rest) =
      (scan state chars).bind fun result => (scan result.2 rest).map (follow result.1) := by
  induction chars generalizing state with
  | nil => rw [List.nil_append, scan, Option.bind_some, follow_nil, Option.map_id_apply]
  | cons c chars ih =>
      rw [List.cons_append, scan, scan]
      cases step state c with
      | none => rfl
      | some result =>
          simp only [Option.bind_some, ih]
          cases scan result.2 chars with
          | none => rfl
          | some result' =>
              rw [Option.bind_some, Option.map_map, follow_follow]
              rfl

/-- A text that is complete: nothing is under way behind it. -/
def Whole (chars : List Char) (tokens : List Token) : Prop :=
  scan .between chars = some (tokens, .between)

/-- A text that makes up tokens, the last of which may still be under way. -/
def Reads (chars : List Char) (tokens : List Token) : Prop :=
  ∃ emitted state rest, scan .between chars = some (emitted, state) ∧ state.due = some rest ∧
    tokens = emitted ++ rest

/-- A character that goes on with no word and with no text or name in quotes. -/
def isBreak (c : Char) : Bool := !isWordChar c && c != '\'' && c != '"'

/-- A text at whose start whatever is in front of it ends. -/
def StartsApart (chars : List Char) : Prop := chars.head?.all isBreak = true

instance (chars : List Char) (tokens : List Token) : Decidable (Whole chars tokens) :=
  inferInstanceAs (Decidable (_ = _))

instance (chars : List Char) : Decidable (StartsApart chars) :=
  inferInstanceAs (Decidable (_ = _))

theorem StartsApart.append {chars : List Char} (h : StartsApart chars) (hne : chars ≠ [])
    (rest : List Char) : StartsApart (chars ++ rest) := by
  rwa [StartsApart, List.head?_append_of_ne_nil _ hne]

section Parts

variable {chars rest : List Char} {tokens others : List Token}

theorem Reads.nil : Reads [] [] := ⟨[], .between, [], rfl, rfl, rfl⟩

theorem Whole.append (h : Whole chars tokens) (hrest : Reads rest others) :
    Reads (chars ++ rest) (tokens ++ others) := by
  obtain ⟨emitted, state, due, hscan, hdue, rfl⟩ := hrest
  refine ⟨tokens ++ emitted, state, due, ?_, hdue, (List.append_assoc _ _ _).symm⟩
  rw [scan_append, h, Option.bind_some, hscan, Option.map_some, follow]

/-- Where a token may end, a breaking character ends it. -/
theorem step_of_due {state : State} {due : List Token} (hdue : state.due = some due) {c : Char}
    (hbreak : isBreak c = true) : step state c = (start c).map (follow due) := by
  simp only [isBreak, Bool.and_eq_true, Bool.not_eq_true', bne_iff_ne] at hbreak
  obtain ⟨⟨hword, htext⟩, hname⟩ := hbreak
  cases state with
  | between =>
      obtain rfl := Option.some.inj hdue
      rw [step, follow_nil, Option.map_id_apply]
  | word read =>
      obtain rfl := Option.some.inj hdue
      rw [step, hword, if_neg Bool.false_ne_true]
  | closing quote read =>
      obtain rfl := Option.some.inj hdue
      have hmark : c ≠ quote.mark := by cases quote <;> assumption
      rw [step, if_neg hmark]
  | comment => cases hdue
  | dash => cases hdue
  | quoted quote read => cases hdue

theorem Reads.append (h : Reads chars tokens) (hapart : StartsApart rest)
    (hrest : Reads rest others) : Reads (chars ++ rest) (tokens ++ others) := by
  obtain ⟨emitted, state, due, hscan, hdue, rfl⟩ := h
  obtain ⟨emitted', state', due', hscan', hdue', rfl⟩ := hrest
  cases rest with
  | nil =>
      obtain ⟨rfl, rfl⟩ := Prod.mk.inj (Option.some.inj hscan')
      obtain rfl := Option.some.inj hdue'
      simpa using ⟨emitted, state, due, hscan, hdue, rfl⟩
  | cons c rest =>
      have hstep := step_of_due hdue hapart
      refine ⟨emitted ++ due ++ emitted', state', due', ?_, hdue', by simp⟩
      rw [scan, step] at hscan'
      rw [scan_append, hscan, Option.bind_some, scan, hstep]
      cases hstart : start c with
      | none =>
          rw [hstart] at hscan'
          cases hscan'
      | some result =>
          rw [hstart, Option.bind_some] at hscan'
          obtain ⟨last, hlast, hfollow⟩ := Option.map_eq_some_iff.mp hscan'
          obtain ⟨rfl, rfl⟩ := Prod.mk.inj hfollow
          have hnext : (follow due result).2 = result.2 := rfl
          rw [Option.map_some, Option.bind_some, hnext, hlast]
          simp [follow]

theorem read_eq_some {s : String} (h : Reads s.toList tokens) : read s = some tokens := by
  obtain ⟨emitted, state, due, hscan, hdue, rfl⟩ := h
  have hfinal : state.final = some due := by
    cases state with
    | comment => cases hdue
    | _ => exact hdue
  rw [read, hscan, Option.bind_some, hfinal, Option.map_some]

end Parts

/-! ### Single tokens -/

theorem scan_word (read : List Char) {chars : List Char} (h : ∀ c ∈ chars, isWordChar c = true) :
    scan (.word read) chars = some ([], .word (read ++ chars)) := by
  induction chars generalizing read with
  | nil => rw [scan, List.append_nil]
  | cons c chars ih =>
      obtain ⟨hc, hchars⟩ := List.forall_mem_cons.mp h
      rw [scan, step, if_pos hc, Option.bind_some, ih _ hchars]
      simp [follow]

/-- No character of a word begins anything else. -/
theorem start_word {c : Char} (h : isWordChar c = true) : start c = some ([], .word [c]) := by
  have hne : ∀ d, isWordChar d = false → c ≠ d := by
    rintro d hd rfl
    rw [h] at hd
    cases hd
  have hspace : isSpace c = false := by
    simp only [isSpace, Bool.or_eq_false_iff, beq_eq_false_iff_ne]
    refine ⟨⟨⟨⟨?_, ?_⟩, ?_⟩, ?_⟩, ?_⟩ <;> exact hne _ (by decide)
  rw [start, hspace, if_neg Bool.false_ne_true, if_neg (hne _ (by decide)),
    if_neg (hne _ (by decide)), if_neg (hne _ (by decide)), if_pos h]

theorem reads_word {chars : List Char} (hne : chars ≠ []) (h : ∀ c ∈ chars, isWordChar c = true) :
    Reads chars [.word (String.ofList chars)] := by
  cases chars with
  | nil => exact absurd rfl hne
  | cons c chars =>
      obtain ⟨hc, hchars⟩ := List.forall_mem_cons.mp h
      refine ⟨[], .word (c :: chars), _, ?_, rfl, rfl⟩
      rw [scan, step, start_word hc, Option.bind_some, scan_word _ hchars]
      rfl

/-- A number with its sign is one word. -/
theorem reads_signed {chars : List Char} (hne : chars ≠ []) (h : ∀ c ∈ chars, c.isDigit = true) :
    Reads ('-' :: chars) [.word (String.ofList ('-' :: chars))] := by
  cases chars with
  | nil => exact absurd rfl hne
  | cons c chars =>
      obtain ⟨hc, hchars⟩ := List.forall_mem_cons.mp h
      have hword : ∀ c ∈ chars, isWordChar c = true := by
        intro d hd
        simp [isWordChar, Char.isAlphanum, hchars d hd]
      have hdash : c ≠ '-' := by
        rintro rfl
        cases hc
      have hdash' : start '-' = some ([], .dash) := by decide
      refine ⟨[], .word ('-' :: c :: chars), _, ?_, rfl, rfl⟩
      rw [scan, step, hdash', Option.bind_some, scan, step, if_neg hdash, if_pos hc,
        Option.bind_some, scan_word _ hword]
      rfl

/-- A mark that is written twice is read once. -/
theorem scan_doubled (quote : Quote) (read chars : List Char) :
    scan (.quoted quote read) (doubled quote.mark chars) = some ([], .quoted quote (read ++ chars)) := by
  induction chars generalizing read with
  | nil => rw [doubled, List.flatMap_nil, scan, List.append_nil]
  | cons c chars ih =>
      have ih := ih (read ++ [c])
      rw [List.append_assoc, List.singleton_append, doubled] at ih
      rw [doubled, List.flatMap_cons]
      split
      · rename_i hmark
        subst hmark
        simp only [List.cons_append, List.nil_append, scan, step, if_true, Option.bind_some, ih]
        rfl
      · rename_i hmark
        simp only [List.cons_append, List.nil_append, scan, step, if_neg hmark, Option.bind_some, ih]
        rfl

/-- **What is enclosed is read back.** Whatever a text or a name in quotes contains, it ends where its
closing mark stands and is read as it was. -/
theorem reads_enclosed (quote : Quote) (s : String) :
    Reads (enclosed quote.mark s).toList [quote.token s.toList] := by
  have hstart : start quote.mark = some ([], .quoted quote []) := by cases quote <;> decide
  refine ⟨[], .closing quote s.toList, _, ?_, rfl, rfl⟩
  rw [enclosed, String.toList_ofList, List.cons_append, scan, step, hstart, Option.bind_some,
    scan_append, scan_doubled, Option.bind_some, scan, step, if_pos rfl]
  rfl

theorem scan_comment {chars : List Char} (h : '\n' ∉ chars) :
    scan .comment (chars ++ ['\n']) = some ([], .between) := by
  induction chars with
  | nil => rfl
  | cons c chars ih =>
      rw [List.mem_cons, not_or] at h
      rw [List.cons_append, scan, step, if_neg (Ne.symm h.1), Option.bind_some, ih h.2]
      rfl

theorem whole_comment {chars : List Char} (h : '\n' ∉ chars) :
    Whole ('-' :: '-' :: chars ++ ['\n']) [] := by
  have hdash : start '-' = some ([], .dash) := by decide
  rw [Whole, List.cons_append, List.cons_append, scan, step, hdash, Option.bind_some, scan, step,
    if_pos rfl, Option.bind_some, scan_comment h]
  rfl

/-! ### Lists -/

/-- Texts with separators between them are read as their tokens with those of the separators. -/
theorem reads_intercalate {c : Char} {separator : List Char} {between : List Token}
    (hseparator : Whole (c :: separator) between) (hbreak : isBreak c = true)
    {texts : List (List Char)} {groups : List (List Token)} (h : List.Forall₂ Reads texts groups)
    {rest : List Char} {others : List Token} (hrest : Reads rest others)
    (hrestApart : StartsApart rest) :
    Reads (List.intercalate (c :: separator) texts ++ rest)
      (List.intercalate between groups ++ others) := by
  induction h with
  | nil => exact hrest
  | @cons text group texts groups hfirst htexts ih =>
      cases htexts with
      | nil =>
          simp only [List.intercalate_singleton]
          exact hfirst.append hrestApart hrest
      | cons hsecond htexts =>
          rw [List.intercalate_cons_cons, List.intercalate_cons_cons]
          simp only [List.append_assoc]
          exact hfirst.append hbreak (hseparator.append ih)

end Reading

/-! ### Names -/

/-- The name that a token is. -/
def Token.name? : Token → Option String
  | .word s | .name s => some s
  | _ => none

/-- The token of a name as it is written. -/
def nameToken (name : String) : Token := if needsQuotes name then .name name else .word name

theorem name?_nameToken (name : String) : (nameToken name).name? = some name := by
  rw [nameToken]
  split <;> rfl

theorem mem_enclosed {mark c : Char} {s : String} (h : c ∈ (enclosed mark s).toList) :
    c = mark ∨ c ∈ s.toList := by
  simp only [enclosed, String.toList_ofList, doubled, List.cons_append, List.mem_cons,
    List.mem_append, List.mem_flatMap, List.not_mem_nil, or_false] at h
  rcases h with rfl | ⟨d, hd, hin⟩ | rfl
  · exact Or.inl rfl
  · split at hin
    · rcases List.mem_cons.mp hin with rfl | hin
      · exact Or.inl rfl
      · exact Or.inl (List.mem_singleton.mp hin)
    · exact Or.inr (List.mem_singleton.mp hin ▸ hd)
  · exact Or.inl rfl

theorem isWordChar_of_isPlainChar {c : Char} (h : isPlainChar c = true) :
    Reading.isWordChar c = true := by
  simp only [isPlainChar, Bool.or_eq_true, beq_iff_eq] at h
  rcases h with (((hletter | rfl) | rfl) | rfl) | rfl
  · simp [Reading.isWordChar, hletter]
  all_goals decide

/-- **Names are read back.** Whether it needs quotes or not, a name without a line feed is one token. -/
theorem reads_identifier {name : String} (h : '\n' ∉ name.toList) :
    Reading.Reads (identifier name).toList [nameToken name] := by
  rw [identifier, nameToken]
  split
  · have henclosed := Reading.reads_enclosed .name name
    rwa [Reading.Quote.token, String.ofList_toList] at henclosed
  · rename_i hplain
    have hlast : name.toList.getLast? ≠ some '\n' := fun hlast =>
      h (List.mem_of_getLast? hlast)
    have hchars : Naming.dropLineFeed name.toList = name.toList := by
      rw [Naming.dropLineFeed, if_neg hlast]
    simp only [needsQuotes, hchars, Bool.or_eq_true, not_or, Bool.not_eq_true, Bool.not_eq_true',
      Bool.not_eq_false, List.isEmpty_eq_false_iff] at hplain
    obtain ⟨⟨⟨⟨hne, -⟩, hall⟩, -⟩, -⟩ := hplain
    have hword := Reading.reads_word hne fun c hc =>
      isWordChar_of_isPlainChar (List.all_eq_true.mp hall c hc)
    rwa [String.ofList_toList] at hword

end ApiScaffold.Sql
