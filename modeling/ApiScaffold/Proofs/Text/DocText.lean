import Mathlib
import ApiScaffold.Proofs.Text.Lines
import ApiScaffold.Schema.Module

/-! Texts between three quotes, read by the rules for literals of generated code. A text that a module opens
with ends where it was written unless the name that it tells has three quotes of its own; then what stands
behind them in the name is code. -/

namespace ApiScaffold.DocText

open Text

/-! ### Reading -/

/-- What stands before the place that reading has come to in a text between three quotes: a backslash that
counts, two quotes, one quote, or something else. -/
inductive Place where
  | behindBackslash
  | behindTwoQuotes
  | behindQuote
  | elsewhere
  deriving DecidableEq, Repr

/-- Reads one more character; nothing if it ends the text. A backslash takes the next character with it,
whatever it is, and the third quote in a row ends the text. -/
def step (place : Place) (c : Char) : Option Place :=
  match place with
  | .behindBackslash => some .elsewhere
  | .behindTwoQuotes =>
    if c = '"' then none else if c = '\\' then some .behindBackslash else some .elsewhere
  | .behindQuote =>
    if c = '"' then some .behindTwoQuotes
    else if c = '\\' then some .behindBackslash else some .elsewhere
  | .elsewhere =>
    if c = '"' then some .behindQuote
    else if c = '\\' then some .behindBackslash else some .elsewhere

/-- What stands behind the end of the text that is being read, if it has an end. -/
def codeFrom (place : Place) : List Char → Option (List Char)
  | [] => none
  | c :: rest =>
    match step place c with
    | none => some rest
    | some next => codeFrom next rest

/-- The code behind the doc text that a module opens with. -/
def code? (content : String) : Option String :=
  match content.toList with
  | '"' :: '"' :: '"' :: chars => (codeFrom .elsewhere chars).map String.ofList
  | _ => none

/-- Where reading is behind some characters, if they do not end the text. -/
def passed (place : Place) (chars : List Char) : Option Place := chars.foldlM step place

/-- Nothing in a name ends the text that it is put into. -/
def IsConfined (name : String) : Prop := (passed .elsewhere name.toList).isSome = true

instance (name : String) : Decidable (IsConfined name) := inferInstanceAs (Decidable (_ = _))

/-- What of a name is code: all that stands behind the place where it ends the text that it is put into. -/
def leaked (name : String) : String := ((codeFrom .elsewhere name.toList).map String.ofList).getD ""

/-! ### What ends a text -/

section Places

variable {place next : Place} {c : Char} {chars rest : List Char}

theorem step_eq_none : step place c = none ↔ place = .behindTwoQuotes ∧ c = '"' := by
  cases place with
  | behindBackslash => simp [step]
  | behindTwoQuotes =>
      simp only [step]
      split_ifs with hquote <;> simp [hquote]
  | behindQuote =>
      simp only [step]
      split_ifs <;> simp
  | elsewhere =>
      simp only [step]
      split_ifs <;> simp

/-- Whatever is behind a line feed is elsewhere. -/
theorem step_lineFeed (place : Place) : step place '\n' = some .elsewhere := by
  cases place <;> rfl

theorem passed_cons (place : Place) (c : Char) (chars : List Char) :
    passed place (c :: chars) = (step place c).bind fun next => passed next chars := rfl

/-- Characters that are neither quotes nor backslashes leave reading where it is. -/
theorem passed_of_ne (h : ∀ c ∈ chars, c ≠ '"' ∧ c ≠ '\\') :
    passed .elsewhere chars = some .elsewhere := by
  induction chars with
  | nil => rfl
  | cons c chars ih =>
      obtain ⟨⟨hquote, hslash⟩, hrest⟩ := List.forall_mem_cons.mp h
      rw [passed_cons, step, if_neg hquote, if_neg hslash, Option.bind_some, ih hrest]

/-- What does not end the text is passed over. -/
theorem codeFrom_append (h : passed place chars = some next) (rest : List Char) :
    codeFrom place (chars ++ rest) = codeFrom next rest := by
  induction chars generalizing place with
  | nil =>
      obtain rfl := Option.some.inj h
      rfl
  | cons c chars ih =>
      rw [passed_cons] at h
      obtain ⟨between, hstep, hrest⟩ := Option.bind_eq_some_iff.mp h
      rw [List.cons_append, codeFrom, hstep]
      exact ih hrest

/-- The quotes that reading has just passed. -/
def pending : Place → List Char
  | .behindTwoQuotes => ['"', '"']
  | .behindQuote => ['"']
  | .behindBackslash | .elsewhere => []

theorem pending_step (h : step place c = some next) :
    ∃ front, pending place ++ [c] = front ++ pending next := by
  cases place with
  | behindBackslash =>
      cases h
      exact ⟨_, (List.append_nil _).symm⟩
  | behindTwoQuotes =>
      simp only [step] at h
      split_ifs at h <;> cases h <;> exact ⟨_, (List.append_nil _).symm⟩
  | behindQuote =>
      simp only [step] at h
      split_ifs at h with hquote
      · cases h
        exact ⟨[], by rw [hquote]; rfl⟩
      all_goals cases h; exact ⟨_, (List.append_nil _).symm⟩
  | elsewhere =>
      simp only [step] at h
      split_ifs at h with hquote
      · cases h
        exact ⟨[], by rw [hquote]; rfl⟩
      all_goals cases h; exact ⟨_, (List.append_nil _).symm⟩

/-- What ends the text has three quotes in it, the first of which may have been passed before. -/
theorem exists_quotes (h : passed place chars = none) :
    ∃ front behind, pending place ++ chars = front ++ ['"', '"', '"'] ++ behind ∧
      ∀ rest, codeFrom place (chars ++ rest) = some (behind ++ rest) := by
  induction chars generalizing place with
  | nil => cases h
  | cons c chars ih =>
      rw [passed_cons, Option.bind_eq_none_iff] at h
      cases hstep : step place c with
      | none =>
          obtain ⟨rfl, rfl⟩ := step_eq_none.mp hstep
          exact ⟨[], chars, rfl, fun rest => rfl⟩
      | some next =>
          obtain ⟨front, behind, hquotes, hcode⟩ := ih (h next hstep)
          obtain ⟨before, hpending⟩ := pending_step hstep
          refine ⟨before ++ front, behind, ?_, fun rest => ?_⟩
          · rw [List.append_cons, hpending, List.append_assoc, hquotes]
            simp only [List.append_assoc]
          · rw [List.cons_append, codeFrom, hstep]
            exact hcode rest

end Places

/-! ### Doc texts that are written -/

/-- A doc text as it is written: the title, and a line that tells that the module was generated. -/
def written (title : String) : String :=
  Schema.docQuotes ++ ("\n" ++ title ++ ("\n" ++ Schema.generatedLine ++ "\n" ++ Schema.docQuotes))

/-- A module opens with a doc text of the given title, and reading it ends where it was written. -/
def EndsAsWritten (title content : String) : Prop :=
  ∃ code, content = written title ++ code ∧ code? content = some code

theorem toList_written_append (title code : String) :
    (written title ++ code).toList =
      '"' :: '"' :: '"' :: ('\n' :: title.toList ++
        ('\n' :: Schema.generatedLine.toList ++ '\n' :: '"' :: '"' :: '"' :: code.toList)) := by
  simp [written, Schema.docQuotes, String.toList_append]

theorem code?_of_toList {content : String} {chars : List Char}
    (h : content.toList = '"' :: '"' :: '"' :: chars) :
    code? content = (codeFrom .elsewhere chars).map String.ofList := by
  simp only [code?, h]

/-- The code behind a doc text whose title is a label and a name. -/
theorem code?_written {label : String}
    (hlabel : passed .elsewhere ('\n' :: label.toList) = some .elsewhere) (name code : String) :
    code? (written (label ++ name) ++ code) =
      (codeFrom .elsewhere (name.toList ++
        ('\n' :: Schema.generatedLine.toList ++ '\n' :: '"' :: '"' :: '"' :: code.toList))).map
          String.ofList := by
  have htitle : ∀ rest, '\n' :: (label ++ name).toList ++ rest =
      ('\n' :: label.toList) ++ (name.toList ++ rest) := by
    intro rest
    rw [String.toList_append, List.cons_append, List.cons_append, List.append_assoc]
  rw [code?_of_toList (toList_written_append _ code), htitle, codeFrom_append hlabel]

/-- A name that is not confined has three quotes. They end the text, and the rest of the name is code. -/
theorem exists_eq_leaked {name : String} (h : ¬IsConfined name) :
    (∃ front, name = front ++ Schema.docQuotes ++ leaked name) ∧
      ∀ {label : String}, passed .elsewhere ('\n' :: label.toList) = some .elsewhere →
        ∀ code, code? (written (label ++ name) ++ code) =
          some (leaked name ++ ("\n" ++ Schema.generatedLine ++ "\n" ++ Schema.docQuotes ++ code)) := by
  rw [IsConfined, Option.not_isSome_iff_eq_none] at h
  obtain ⟨front, behind, hquotes, hcode⟩ := exists_quotes h
  have hleaked : leaked name = String.ofList behind := by
    have hall := hcode []
    rw [List.append_nil, List.append_nil] at hall
    rw [leaked, hall]
    rfl
  rw [hleaked]
  refine ⟨⟨String.ofList front, String.toList_injective ?_⟩, fun hlabel code => ?_⟩
  · simpa [pending, Schema.docQuotes] using hquotes
  · rw [code?_written hlabel, hcode]
    refine congrArg some (String.toList_injective ?_)
    simp [Schema.docQuotes, String.toList_append]

theorem leaked_of_isConfined {name : String} (h : IsConfined name) : leaked name = "" := by
  obtain ⟨place, hplace⟩ := Option.isSome_iff_exists.mp h
  have hnone := codeFrom_append hplace []
  rw [List.append_nil] at hnone
  rw [leaked, hnone]
  rfl

section Titles

variable {label : String} (hlabel : passed .elsewhere ('\n' :: label.toList) = some .elsewhere)

include hlabel

/-- Behind a name that is confined, the text ends where it was written. -/
theorem code?_written_of_isConfined {name : String} (h : IsConfined name) (code : String) :
    code? (written (label ++ name) ++ code) = some code := by
  obtain ⟨place, hplace⟩ := Option.isSome_iff_exists.mp h
  have hline : passed place ('\n' :: Schema.generatedLine.toList ++ ['\n']) = some .elsewhere := by
    rw [List.cons_append, passed_cons, step_lineFeed]
    decide
  have hend : '\n' :: Schema.generatedLine.toList ++ '\n' :: '"' :: '"' :: '"' :: code.toList =
      ('\n' :: Schema.generatedLine.toList ++ ['\n']) ++ ('"' :: '"' :: '"' :: code.toList) := by
    rw [List.append_assoc]
    rfl
  rw [code?_written hlabel, codeFrom_append hplace, hend, codeFrom_append hline]
  exact congrArg some String.ofList_toList

/-- Reading ends where the text was written exactly if the name is confined. -/
theorem endsAsWritten_iff {name content : String} (h : ∃ code, content = written (label ++ name) ++ code) :
    EndsAsWritten (label ++ name) content ↔ IsConfined name := by
  constructor
  · rintro ⟨code, rfl, hend⟩
    by_contra hopen
    rw [(exists_eq_leaked hopen).2 hlabel code] at hend
    have hlength := congrArg String.length (Option.some.inj hend)
    simp only [String.length_append] at hlength
    have hline : "\n".length = 1 := rfl
    omega
  · intro hconfined
    obtain ⟨code, rfl⟩ := h
    exact ⟨code, rfl, code?_written_of_isConfined hlabel hconfined code⟩

end Titles

/-! ### Modules that open with a header -/

/-- The code behind a header, up to the lines of the module. -/
def codeOf (lines : List String) : String :=
  "\n" ++ joinLines ("" :: "from __future__ import annotations" :: "" :: lines)

/-- A module that opens with a header opens with its doc text. -/
theorem joinLines_header (title : String) (lines : List String) :
    joinLines (Schema.header title ++ lines) = written title ++ codeOf lines := by
  simp only [joinLines, Schema.header, List.cons_append, List.nil_append,
    String.intercalate_cons_cons, written, codeOf, String.append_assoc]

theorem exists_eq_written {content title : String} {lines : List String}
    (h : content = joinLines (Schema.header title ++ lines)) : ∃ code, content = written title ++ code :=
  ⟨_, h.trans (joinLines_header title lines)⟩

theorem linesOf_append_lineFeed (first rest : String) :
    linesOf (first ++ ("\n" ++ rest)) = linesOf first ++ linesOf rest := by
  have hjoined : first ++ ("\n" ++ rest) = joinLines [first, rest] := by
    rw [joinLines, String.intercalate_cons_cons, String.intercalate_singleton, String.append_assoc]
  rw [hjoined, linesOf_joinLines (List.cons_ne_nil _ _), List.flatMap_cons, List.flatMap_singleton]

/-- The lines that every header leaves in the code, or can leave there. -/
def headerLines : List String :=
  ["", "from __future__ import annotations", Schema.generatedLine, Schema.docQuotes]

theorem linesOf_append_codeOf (front : String) (lines : List String) :
    linesOf (front ++ codeOf lines) =
      linesOf front ++ "" :: "from __future__ import annotations" :: "" ::
        lines.flatMap linesOf := by
  have hempty : linesOf "" = [""] := by decide
  have hannotations : linesOf "from __future__ import annotations" =
      ["from __future__ import annotations"] := by decide
  rw [codeOf, linesOf_append_lineFeed, linesOf_joinLines (List.cons_ne_nil _ _)]
  simp only [List.flatMap_cons, hempty, hannotations, List.singleton_append]

/-- The code of a module that opens with a header has the lines of the module and those that the name
brings with it, beside what belongs to the header. -/
theorem exists_code {label : String} (hlabel : passed .elsewhere ('\n' :: label.toList) = some .elsewhere)
    (name : String) (lines : List String) :
    ∃ code extra, code? (joinLines (Schema.header (label ++ name) ++ lines)) = some code ∧
      extra ⊆ headerLines ∧ ∀ line, line ∈ linesOf code ↔
        line ∈ linesOf (leaked name) ∨ line ∈ extra ∨ line ∈ lines.flatMap linesOf := by
  rw [joinLines_header]
  by_cases h : IsConfined name
  · refine ⟨codeOf lines, ["", "from __future__ import annotations"],
      code?_written_of_isConfined hlabel h _, by decide, fun line => ?_⟩
    have hempty : linesOf "" = [""] := by decide
    have hcode := linesOf_append_codeOf "" lines
    rw [String.empty_append] at hcode
    rw [hcode, leaked_of_isConfined h, hempty]
    simp only [List.mem_append, List.mem_cons, List.not_mem_nil, or_false]
    grind
  · refine ⟨_, [Schema.generatedLine, Schema.docQuotes, "", "from __future__ import annotations"],
      (exists_eq_leaked h).2 hlabel _, by decide, fun line => ?_⟩
    have hgenerated : linesOf Schema.generatedLine = [Schema.generatedLine] := by decide
    have hquotes : linesOf Schema.docQuotes = [Schema.docQuotes] := by decide
    simp only [String.append_assoc]
    rw [linesOf_append_lineFeed, linesOf_append_lineFeed, linesOf_append_codeOf, hgenerated, hquotes]
    simp only [List.mem_append, List.mem_cons, List.not_mem_nil, or_false]
    grind

end ApiScaffold.DocText
