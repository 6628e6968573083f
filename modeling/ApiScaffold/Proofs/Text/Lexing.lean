import Mathlib
import ApiScaffold.Naming.Identifier
import ApiScaffold.Proofs.Text.Literal

/-! Code, read into lexemes one character at a time. A quote opens a literal, three of them one that may have
line feeds; inside, a backslash changes what the characters behind it mean. What the reader has no rule for is
refused: characters outside of ASCII that no literal holds, letters in front of a literal, comments, and
characters that are called by a name. -/

namespace ApiScaffold.Lexing

open Naming Text

/-- What code consists of: names, numbers, signs, and literals, which stand for the texts they denote. -/
inductive Lexeme where
  | name (s : String)
  | number (s : String)
  | text (s : String)
  | sign (c : Char)
  deriving DecidableEq, Repr

/-- How far a literal is read: through its text, with the quotes that stood last; behind a backslash; or
through the digits of an escape, of which some may follow. -/
inductive Progress where
  | through (quotes : Nat)
  | backslash
  | hexadecimal (digits : List Char) (missing : Nat)
  | octal (value missing : Nat)
  deriving DecidableEq, Repr

/-- Where the reader is. Names, numbers and the texts of literals are kept in reverse. -/
inductive Place where
  | between
  | name (read : List Char)
  | number (read : List Char)
  | quote
  | twoQuotes
  | inside (isLong : Bool) (content : List Char) (progress : Progress)
  deriving DecidableEq, Repr

/-- The lexemes that are completed, and the place that is reached. -/
abbrev Reading := Option (List Lexeme × Place)

/-- Puts lexemes in front of those that are completed. -/
def Reading.behind (made : List Lexeme) (reading : Reading) : Reading :=
  reading.map fun reached => (made ++ reached.1, reached.2)

/-! ### Literals -/

/-- The character that a backslash and one character stand for. -/
def simple? (c : Char) : Option Char :=
  (Code.escaped? c).or ([('\x27', '\x27'), ('a', '\x07'), ('v', '\x0b')].lookup c)

/-- How many hexadecimal digits follow a letter behind a backslash. -/
def digitCount? (c : Char) : Option Nat := [('x', 2), ('u', 4), ('U', 8)].lookup c

def octalValue? (c : Char) : Option Nat := if '0' ≤ c ∧ c ≤ '7' then some (c.toNat - 0x30) else none

/-- Characters that no source text holds as they are. -/
def isBarred (c : Char) : Bool := c == '\r' || c == '\x00'

/-- Goes on in the text of a literal. -/
def goOn (isLong : Bool) (content : List Char) : Reading := some ([], .inside isLong content (.through 0))

/-- A character in the text of a literal. Quotes that do not close a long literal belong to its text. -/
def readThrough (isLong : Bool) (content : List Char) (quotes : Nat) (c : Char) : Reading :=
  if c = '"' then
    if isLong && decide (quotes < 2) then some ([], .inside isLong content (.through (quotes + 1)))
    else some ([.text (String.ofList content.reverse)], .between)
  else if isBarred c || (c == '\n' && !isLong) then none
  else
    let before := List.replicate quotes '"' ++ content
    if c = '\\' then some ([], .inside isLong before .backslash) else goOn isLong (c :: before)

/-- A character behind a backslash. A line feed is left out, and a character without a meaning of its own keeps
the backslash. -/
def readEscape (isLong : Bool) (content : List Char) (c : Char) : Reading :=
  match simple? c, digitCount? c, octalValue? c with
  | some meant, _, _ => goOn isLong (meant :: content)
  | none, some count, _ => some ([], .inside isLong content (.hexadecimal [] count))
  | none, none, some value => some ([], .inside isLong content (.octal value 2))
  | none, none, none =>
    if c = '\n' then goOn isLong content
    else if isBarred c || c == 'N' then none
    else goOn isLong (c :: '\\' :: content)

/-- A character in a literal. -/
def readInside (isLong : Bool) (content : List Char) : Progress → Char → Reading
  | .through quotes, c => readThrough isLong content quotes c
  | .backslash, c => readEscape isLong content c
  | .hexadecimal digits missing, c =>
    if 1 < missing then some ([], .inside isLong content (.hexadecimal (digits ++ [c]) (missing - 1)))
    else (Code.unit? (digits ++ [c])).bind fun meant => goOn isLong (meant :: content)
  | .octal value missing, c =>
    match octalValue? c with
    | some digit =>
      if 1 < missing then some ([], .inside isLong content (.octal (value * 8 + digit) (missing - 1)))
      else goOn isLong (Char.ofNat (value * 8 + digit) :: content)
    | none => readThrough isLong (Char.ofNat value :: content) 0 c

/-! ### Lexemes -/

/-- The signs of code. -/
def isSign (c : Char) : Bool := "()[]\x7b\x7d,:;.=+-*/%@&|^~<>".toList.contains c

/-- Whether a character goes on with the number read so far; a sign does behind the mark of an exponent. -/
def goesOnNumber (read : List Char) (c : Char) : Bool :=
  c.isDigit || c == '.' || c == 'e' || c == 'E' ||
    ((c == '+' || c == '-') && (read.head? == some 'e' || read.head? == some 'E'))

/-- A character where no lexeme is under way. -/
def begin (c : Char) : Reading :=
  if c = ' ' ∨ c = '\n' then some ([], .between)
  else if c = '"' then some ([], .quote)
  else if isNameStart c then some ([], .name [c])
  else if c.isDigit then some ([], .number [c])
  else if isSign c then some ([.sign c], .between)
  else none

/-- A character that ends a lexeme and may begin the next one. -/
def beginBehind (made : Lexeme) (c : Char) : Reading := (begin c).behind [made]

def nameOf (read : List Char) : Lexeme := .name (String.ofList read.reverse)

def numberOf (read : List Char) : Lexeme := .number (String.ofList read.reverse)

/-- One step of the reader. -/
def step : Place → Char → Reading
  | .between, c => begin c
  | .name read, c =>
    if isNameChar c then some ([], .name (c :: read))
    else if c = '"' then none
    else beginBehind (nameOf read) c
  | .number read, c =>
    if goesOnNumber read c then some ([], .number (c :: read)) else beginBehind (numberOf read) c
  | .quote, c => if c = '"' then some ([], .twoQuotes) else readThrough false [] 0 c
  | .twoQuotes, c =>
    if c = '"' then some ([], .inside true [] (.through 0)) else beginBehind (.text "") c
  | .inside isLong content progress, c => readInside isLong content progress c

/-- The lexeme that the end of code completes, unless it is in the middle of a literal. -/
def Place.finish : Place → Option (List Lexeme)
  | .between => some []
  | .name read => some [nameOf read]
  | .number read => some [numberOf read]
  | .twoQuotes => some [.text ""]
  | .quote | .inside .. => none

/-- A run of the reader. -/
def run : Place → List Char → Reading
  | place, [] => some ([], place)
  | place, c :: rest => (step place c).bind fun reached => (run reached.2 rest).behind reached.1

/-- The lexemes of code that is read from a place on. -/
def lexFrom (place : Place) (chars : List Char) : Option (List Lexeme) :=
  (run place chars).bind fun reached => reached.2.finish.map (reached.1 ++ ·)

def lex? (code : String) : Option (List Lexeme) := lexFrom .between code.toList

example : lex? "age: int = Field(default=-1.5e-07, description=\"\\x41\\\"\")" =
    some [.name "age", .sign ':', .name "int", .sign '=', .name "Field", .sign '(', .name "default", .sign '=',
      .sign '-', .number "1.5e-07", .sign ',', .name "description", .sign '=', .text "A\"", .sign ')'] := by rfl

/-! ### Parts of code -/

theorem Reading.behind_nil (reading : Reading) : reading.behind [] = reading := by
  cases reading <;> rfl

theorem Reading.behind_behind (made others : List Lexeme) (reading : Reading) :
    (reading.behind others).behind made = reading.behind (made ++ others) := by
  cases reading with
  | none => rfl
  | some reached => simp [Reading.behind]

/-- Code behind which no lexeme is under way. -/
def Whole (chars : List Char) (made : List Lexeme) : Prop := run .between chars = some (made, .between)

/-- Code whose last lexeme may be under way. -/
def Reads (chars : List Char) (made : List Lexeme) : Prop :=
  ∃ emitted place due, run .between chars = some (emitted, place) ∧ place.finish = some due ∧
    made = emitted ++ due

/-- A character that no name, number or literal goes on with. -/
def isBreak (c : Char) : Bool := !isNameChar c && !"\".+-".toList.contains c

/-- Code at whose start whatever is in front of it ends. -/
def StartsApart (chars : List Char) : Prop := chars.head?.all isBreak = true

instance (chars : List Char) (made : List Lexeme) : Decidable (Whole chars made) :=
  inferInstanceAs (Decidable (_ = _))

instance (chars : List Char) : Decidable (StartsApart chars) := inferInstanceAs (Decidable (_ = _))

section Parts

variable {place next : Place} {chars rest : List Char} {made others due : List Lexeme}

theorem run_append (h : run place chars = some (made, next)) (rest : List Char) :
    run place (chars ++ rest) = (run next rest).behind made := by
  induction chars generalizing place made with
  | nil =>
      obtain ⟨rfl, rfl⟩ := Prod.mk.inj (Option.some.inj h)
      exact (Reading.behind_nil _).symm
  | cons c chars ih =>
      obtain ⟨reached, hstep, h⟩ := Option.bind_eq_some_iff.mp h
      obtain ⟨last, hrun, h⟩ := Option.map_eq_some_iff.mp h
      obtain ⟨rfl, rfl⟩ := Prod.mk.inj h
      rw [List.cons_append, run, hstep, Option.bind_some, ih hrun, Reading.behind_behind]

/-- A lexeme that a character ends is complete, and the character begins what follows. -/
theorem run_of_step {c : Char} (h : step place c = (begin c).behind due) (rest : List Char) :
    run place (c :: rest) = (run .between (c :: rest)).behind due := by
  rw [run, run, h, step]
  cases begin c with
  | none => rfl
  | some reached => exact (Reading.behind_behind _ _ _).symm

theorem lexFrom_of_run {chars' : List Char} (h : run place chars = (run next chars').behind made) :
    lexFrom place chars = (lexFrom next chars').map (made ++ ·) := by
  rw [lexFrom, lexFrom, h]
  cases run next chars' with
  | none => rfl
  | some reached =>
      change reached.2.finish.map (made ++ reached.1 ++ ·) =
        (reached.2.finish.map (reached.1 ++ ·)).map (made ++ ·)
      rw [Option.map_map]
      exact congrArg (Option.map · _) (funext fun _ => List.append_assoc _ _ _)

theorem Reads.nil : Reads [] [] := ⟨[], .between, [], rfl, rfl, rfl⟩

theorem Whole.reads (h : Whole chars made) : Reads chars made :=
  ⟨made, .between, [], h, rfl, (List.append_nil _).symm⟩

theorem Whole.append (h : Whole chars made) (hrest : Reads rest others) :
    Reads (chars ++ rest) (made ++ others) := by
  obtain ⟨emitted, last, due, hrun, hfinish, rfl⟩ := hrest
  refine ⟨made ++ emitted, last, due, ?_, hfinish, (List.append_assoc _ _ _).symm⟩
  rw [run_append h, hrun]
  rfl

/-- Where a lexeme may end, a breaking character ends it. -/
theorem step_of_finish (hfinish : place.finish = some due) {c : Char} (hbreak : isBreak c = true) :
    step place c = (begin c).behind due := by
  rw [isBreak, Bool.and_eq_true, Bool.not_eq_true', Bool.not_eq_true'] at hbreak
  obtain ⟨hname, hmark⟩ := hbreak
  have hne : ∀ d ∈ "\".+-".toList, c ≠ d := by
    rintro d hd rfl
    rw [List.contains_iff_mem.mpr hd] at hmark
    cases hmark
  have hletter : ∀ d, isNameChar d = true → c ≠ d := by
    rintro d hd rfl
    exact Bool.false_ne_true (hname.symm.trans hd)
  cases place with
  | between =>
      obtain rfl := Option.some.inj hfinish
      exact (Reading.behind_nil _).symm
  | name read =>
      obtain rfl := Option.some.inj hfinish
      rw [step, hname, if_neg Bool.false_ne_true, if_neg (hne '"' (by decide)), beginBehind]
  | number read =>
      obtain rfl := Option.some.inj hfinish
      have hdigit : c.isDigit = false := by
        rw [isNameChar, Char.isAlphanum, Bool.or_eq_false_iff, Bool.or_eq_false_iff] at hname
        exact hname.1.2
      have hends : goesOnNumber read c = false := by
        simp [goesOnNumber, hdigit, hne, hletter 'e' (by decide), hletter 'E' (by decide)]
      rw [step, hends, if_neg Bool.false_ne_true, beginBehind]
  | twoQuotes =>
      obtain rfl := Option.some.inj hfinish
      rw [step, if_neg (hne '"' (by decide)), beginBehind]
  | quote => cases hfinish
  | inside isLong content progress => cases hfinish

theorem Reads.append (h : Reads chars made) (hapart : StartsApart rest) (hrest : Reads rest others) :
    Reads (chars ++ rest) (made ++ others) := by
  obtain ⟨emitted, reached, due, hrun, hfinish, rfl⟩ := h
  obtain ⟨emitted', last, due', hrun', hfinish', rfl⟩ := hrest
  cases rest with
  | nil =>
      obtain ⟨rfl, rfl⟩ := Prod.mk.inj (Option.some.inj hrun')
      obtain rfl := Option.some.inj hfinish'
      simpa using ⟨emitted, reached, due, hrun, hfinish, rfl⟩
  | cons c rest =>
      refine ⟨emitted ++ due ++ emitted', last, due', ?_, hfinish', by simp⟩
      rw [run_append hrun, run_of_step (step_of_finish hfinish hapart), hrun', Reading.behind_behind]
      rfl

/-- What stands between two parts that are whole ends where the second one begins. -/
theorem Reads.enclosed {inside opening closing : String} {before behind : List Lexeme}
    (h : Reads inside.toList made) (hopening : Whole opening.toList before)
    (hclosing : Whole closing.toList behind) (hapart : StartsApart closing.toList) :
    Reads (opening ++ inside ++ closing).toList (before ++ (made ++ behind)) := by
  rw [String.toList_append, String.toList_append, List.append_assoc]
  exact hopening.append (h.append hapart hclosing.reads)

theorem lex?_eq_some {code : String} (h : Reads code.toList made) : lex? code = some made := by
  obtain ⟨emitted, reached, due, hrun, hfinish, rfl⟩ := h
  rw [lex?, lexFrom, hrun, Option.bind_some, hfinish, Option.map_some]

/-- Parts with separators between them are read as their lexemes with those of the separators. -/
theorem reads_intercalate {c : Char} {separator : List Char} {between : List Lexeme}
    (hseparator : Whole (c :: separator) between) (hbreak : isBreak c = true)
    {parts : List (List Char)} {groups : List (List Lexeme)} (h : List.Forall₂ Reads parts groups) :
    Reads (List.intercalate (c :: separator) parts) (List.intercalate between groups) := by
  induction h with
  | nil => exact Reads.nil
  | @cons part group parts groups hfirst hparts ih =>
      cases hparts with
      | nil =>
          simp only [List.intercalate_singleton]
          exact hfirst
      | cons hsecond hparts =>
          rw [List.intercalate_cons_cons, List.intercalate_cons_cons, List.append_assoc, List.append_assoc]
          exact hfirst.append hbreak (hseparator.append ih)

end Parts

/-! ### Literals of texts -/

/-- At such a place the text of a literal begins or goes on, unless a quote stands there. -/
def ReadsOn (place : Place) (content : List Char) : Prop :=
  ∀ c ≠ '"', step place c = readThrough false content 0 c

theorem readsOn_quote : ReadsOn .quote [] := fun _ hc => if_neg hc

theorem readsOn_inside (content : List Char) : ReadsOn (.inside false content (.through 0)) content :=
  fun _ _ => rfl

section Literals

variable {place : Place} {content : List Char}

theorem readThrough_of_isOrdinary (isLong : Bool) (content : List Char) {c : Char} (h : isOrdinary c = true) :
    readThrough isLong content 0 c = goOn isLong (c :: content) := by
  have hne : ∀ d : Char, isOrdinary d = false → c ≠ d := fun d => ne_of_isOrdinary h
  have hfree : (isBarred c || (c == '\n' && !isLong)) = false := by
    simp [isBarred, hne '\r' (by decide), hne '\x00' (by decide), hne '\n' (by decide)]
  rw [readThrough, if_neg (hne '"' (by decide)), hfree]
  simp only [Bool.false_eq_true, if_false, if_neg (hne '\\' (by decide))]
  rfl

/-- A character of a text is read from what stands for it. -/
theorem run_escapedCode (h : ReadsOn place content) (c : Char) :
    run place (escapedCode .controls c.toNat) =
      some ([], .inside false (c :: content) (.through 0)) := by
  have hescape : ∀ rest, run place ('\\' :: rest) = run (.inside false content .backslash) rest := by
    intro rest
    rw [run, h '\\' (by decide)]
    exact Reading.behind_nil _
  have hcontrols : ∀ code < 0x20, run place (escapedCode .controls code) =
      some ([], .inside false (Char.ofNat code :: content) (.through 0)) := by
    intro code hcode
    interval_cases code <;> exact hescape _
  rcases control_or_mark_or_isOrdinary c with hlow | (rfl | rfl) | hordinary
  · rw [hcontrols _ hlow, Char.ofNat_toNat]
  · exact hescape _
  · exact hescape _
  · have hquote : c ≠ '"' := ne_of_isOrdinary hordinary (by decide)
    rw [escapedCode_of_isOrdinary hordinary, run, h c hquote, readThrough_of_isOrdinary false content hordinary]
    rfl

/-- The text of a literal is read, and its last quote is the one that ends it. -/
theorem run_content (h : ReadsOn place content) {chars : List Char} (hne : chars ≠ []) :
    run place (chars.flatMap (fun c => escapedCode .controls c.toNat) ++ ['"']) =
      some ([.text (String.ofList (content.reverse ++ chars))], .between) := by
  induction chars generalizing place content with
  | nil => exact absurd rfl hne
  | cons c chars ih =>
      rw [List.flatMap_cons, List.append_assoc, run_append (run_escapedCode h c), Reading.behind_nil]
      cases chars with
      | nil => rw [List.flatMap_nil, List.nil_append, ← List.reverse_cons]; rfl
      | cons d chars =>
          rw [ih (readsOn_inside _) (List.cons_ne_nil _ _), List.reverse_cons, List.append_assoc,
            List.singleton_append]

theorem run_textLiteral {s : String} (hne : s ≠ "") :
    run .between (textLiteral s).toList = some ([.text s], .between) := by
  have hchars : s.toList ≠ [] := fun h => hne (String.toList_eq_nil_iff.mp h)
  rw [toList_textLiteral]
  change (run .quote (_ ++ ['"'])).behind [] = _
  rw [Reading.behind_nil, run_content readsOn_quote hchars, List.reverse_nil, List.nil_append,
    String.ofList_toList]

/-- **A literal ends at its last quote.** What stands behind it is read as if it stood alone, unless the
literal is empty and a third quote follows. -/
theorem lexFrom_textLiteral (s : String) {rest : List Char} (hrest : rest.head? ≠ some '"') :
    lexFrom .between ((textLiteral s).toList ++ rest) = (lexFrom .between rest).map (.text s :: ·) := by
  by_cases hne : s = ""
  · subst hne
    -- Two quotes may be the first of three, so what follows them decides that the literal is empty.
    have hquotes : run .between (textLiteral "").toList = some ([], .twoQuotes) := rfl
    cases rest with
    | nil => rfl
    | cons c rest =>
        have hc : c ≠ '"' := fun heq => hrest (congrArg some heq)
        have hstep : step .twoQuotes c = (begin c).behind [.text ""] := if_neg hc
        have hrun : run .between ((textLiteral "").toList ++ c :: rest) =
            (run .between (c :: rest)).behind [.text ""] := by
          rw [run_append hquotes, run_of_step hstep, Reading.behind_nil]
        exact lexFrom_of_run hrun
  · exact lexFrom_of_run (run_append (run_textLiteral hne) rest)

end Literals

theorem reads_textLiteral (s : String) : Reads (textLiteral s).toList [.text s] := by
  by_cases hne : s = ""
  · subst hne
    exact ⟨[], .twoQuotes, [.text ""], rfl, rfl, rfl⟩
  · exact Whole.reads (run_textLiteral hne)

/-! ### Tuples -/

/-- Literals and signs as tokens of an expression. -/
def Lexeme.token? : Lexeme → Option Code.Token
  | .text s => some (.text s)
  | .sign c => some (.mark c)
  | .name _ | .number _ => none

/-- The texts that code denotes, if it is a tuple of literals. -/
def tuple? (code : String) : Option (List String) :=
  (lex? code).bind fun lexemes => (lexemes.mapM Lexeme.token?).bind Code.tupleItems?

/-- The lexemes of a list of literals. -/
def itemLexemes (items : List String) : List Lexeme :=
  List.intercalate [.sign ','] (items.map fun s => [.text s])

theorem reads_items (items : List String) :
    Reads (String.intercalate ", " (items.map textLiteral)).toList (itemLexemes items) := by
  rw [String.toList_intercalate]
  have hcomma : Whole [',', ' '] [.sign ','] := rfl
  refine reads_intercalate hcomma (by decide) ?_
  simp only [List.map_map, List.forall₂_map_left_iff, List.forall₂_map_right_iff, List.forall₂_same]
  exact fun s _ => reads_textLiteral s

theorem lex?_tupleLiteral (s second : String) (items : List String) :
    lex? (tupleLiteral (s :: second :: items)) =
      some (.sign '(' :: (itemLexemes (s :: second :: items) ++ [.sign ')'])) := by
  have hopening : Whole "(".toList [.sign '('] := rfl
  have hclosing : Whole ")".toList [.sign ')'] := rfl
  exact lex?_eq_some ((reads_items (s :: second :: items)).enclosed hopening hclosing rfl)

/-- Up to the bracket that closes them, literals with commas between them denote their texts. -/
theorem exists_tokens (s : String) (items : List String) :
    ∃ tokens, (itemLexemes (s :: items) ++ [Lexeme.sign ')']).mapM Lexeme.token? = some tokens ∧
      Code.items? tokens = some (s :: items) ∧ tokens ≠ [.mark ')'] := by
  induction items generalizing s with
  | nil => exact ⟨[.text s, .mark ')'], rfl, rfl, by simp⟩
  | cons second items ih =>
      obtain ⟨tokens, htokens, hitems, hne⟩ := ih second
      refine ⟨.text s :: .mark ',' :: tokens, ?_, ?_, by simp⟩
      · have hlexemes : itemLexemes (s :: second :: items) =
            .text s :: .sign ',' :: itemLexemes (second :: items) :=
          List.intercalate_cons_cons
        rw [hlexemes, List.cons_append, List.cons_append, List.mapM_cons, List.mapM_cons, htokens]
        rfl
      · rw [Code.items?, if_neg hne, hitems]
        rfl

/-- **Every list of texts is read back from its tuple**, whether it has no item, one or more. -/
theorem tuple?_tupleLiteral (items : List String) : tuple? (tupleLiteral items) = some items := by
  match items with
  | [] => rfl
  | [s] =>
      have hwritten : tupleLiteral [s] = "(" ++ textLiteral s ++ ",)" := by simp [tupleLiteral, tupleOf]
      have hopening : Whole "(".toList [.sign '('] := rfl
      have hclosing : Whole ",)".toList [.sign ',', .sign ')'] := rfl
      have hlexemes : lex? (tupleLiteral [s]) = some [.sign '(', .text s, .sign ',', .sign ')'] := by
        rw [hwritten]
        exact lex?_eq_some ((reads_textLiteral s).enclosed hopening hclosing rfl)
      rw [tuple?, hlexemes]
      rfl
  | s :: second :: items =>
      obtain ⟨tokens, htokens, hitems, hne⟩ := exists_tokens s (second :: items)
      rw [tuple?, lex?_tupleLiteral, Option.bind_some, List.mapM_cons, htokens]
      change Code.tupleItems? (.mark '(' :: tokens) = _
      rw [Code.tupleItems?, hitems]
      · exact hne
      · rintro t rfl
        simp [Code.items?] at hitems

end ApiScaffold.Lexing

namespace ApiScaffold

open Lexing

/-- **Literals are read back.** The literal of a text is on one line and, by the rules of the code, is one
literal and denotes the text. Wherever no lexeme of code is under way, it is one lexeme of the code, and what
stands behind it is read as if it stood alone, so no text breaks out of its literal. The tuple of a list of
texts denotes the list. So texts and lists that differ are written in different ways. -/
theorem literals_read_back :
    (∀ s, (Value.text s).literal = .ok (textLiteral s) ∧
      '\n' ∉ (textLiteral s).toList ∧ '\r' ∉ (textLiteral s).toList ∧
      lex? (textLiteral s) = some [.text s] ∧
      ∀ front made rest, Whole front.toList made → rest.toList.head? ≠ some '"' →
        lex? (front ++ textLiteral s ++ rest) = (lex? rest).map fun others => made ++ .text s :: others) ∧
    (∀ items, tuple? (tupleLiteral items) = some items) ∧
    Function.Injective textLiteral ∧ Function.Injective tupleLiteral := by
  refine ⟨fun s => ⟨rfl, not_mem_textLiteral (Or.inl rfl) s, not_mem_textLiteral (Or.inr rfl) s,
    lex?_eq_some (reads_textLiteral s), ?_⟩, tuple?_tupleLiteral, ?_, ?_⟩
  · intro front made rest hfront hrest
    rw [lex?, String.toList_append, String.toList_append, List.append_assoc,
      lexFrom_of_run (run_append hfront _), lexFrom_textLiteral s hrest, Option.map_map]
    rfl
  · intro s s' heq
    have hread := lex?_eq_some (reads_textLiteral s)
    rw [heq, lex?_eq_some (reads_textLiteral s')] at hread
    exact (Lexeme.text.inj (List.singleton_inj.mp (Option.some.inj hread))).symm
  · intro items items' heq
    have hread := tuple?_tupleLiteral items
    rw [heq, tuple?_tupleLiteral] at hread
    exact (Option.some.inj hread).symm

/-- A text with a quote, a backslash and a line feed, as the argument of a call. -/
theorem literals_read_back_argument :
    lex? ("Field(pattern=" ++ textLiteral "a\"b\\\n" ++ ")") =
      some [.name "Field", .sign '(', .name "pattern", .sign '=', .text "a\"b\\\n", .sign ')'] :=
  (literals_read_back.1 "a\"b\\\n").2.2.2.2 "Field(pattern=" _ ")" rfl (by decide)

end ApiScaffold
