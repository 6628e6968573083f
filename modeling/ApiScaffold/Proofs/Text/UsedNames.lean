import Mathlib
import ApiScaffold.Proofs.Naming.Identifier
import ApiScaffold.Proofs.Number.Numeral
import ApiScaffold.Proofs.Text.Lexing

/-! The names that a line of code uses, read from its lexemes: those that stand in what the line evaluates and
are neither keywords nor names of arguments. Texts of literals have no part in them. -/

namespace ApiScaffold.Lexing

open Naming Text

/-! ### Words and numerals -/

theorem begin_of_isNameStart {c : Char} (h : isNameStart c = true) : begin c = some ([], .name [c]) := by
  have hne : ∀ d, isNameStart d = false → c ≠ d := by
    rintro d hd rfl
    exact Bool.false_ne_true (hd.symm.trans h)
  have hblank : ¬(c = ' ' ∨ c = '\n') := not_or.mpr ⟨hne _ (by decide), hne _ (by decide)⟩
  rw [begin, if_neg hblank, if_neg (hne _ (by decide)), if_pos h]

theorem begin_of_isDigit {c : Char} (h : c.isDigit = true) : begin c = some ([], .number [c]) := by
  have hne : ∀ d : Char, d.isDigit = false → c ≠ d := by
    rintro d hd rfl
    exact Bool.false_ne_true (hd.symm.trans h)
  have hblank : ¬(c = ' ' ∨ c = '\n') := not_or.mpr ⟨hne _ (by decide), hne _ (by decide)⟩
  have hstart : isNameStart c = false := by
    have hmark : (c == '_') = false := beq_eq_false_iff_ne.mpr (hne _ (by decide))
    simp only [Char.isDigit, Bool.and_eq_true, decide_eq_true_eq, ge_iff_le, UInt32.le_iff_toNat_le,
      Char.toNat_val, Char.reduceToNat] at h
    simp only [isNameStart, Char.isAlpha, Char.isUpper, Char.isLower, hmark, Bool.or_false,
      Bool.or_eq_false_iff, Bool.and_eq_false_iff, decide_eq_false_iff_not, ge_iff_le,
      UInt32.le_iff_toNat_le, Char.toNat_val, Char.reduceToNat]
    omega
  rw [begin, if_neg hblank, if_neg (hne _ (by decide)), hstart, if_neg Bool.false_ne_true, if_pos h]

theorem run_name (read : List Char) {chars : List Char} (h : ∀ c ∈ chars, isNameChar c = true) :
    run (.name read) chars = some ([], .name (chars.reverse ++ read)) := by
  induction chars generalizing read with
  | nil => rfl
  | cons c chars ih =>
      obtain ⟨hc, hchars⟩ := List.forall_mem_cons.mp h
      rw [run, step, if_pos hc, Option.bind_some, ih _ hchars, List.reverse_cons, List.append_assoc]
      rfl

theorem reads_word {c : Char} {chars : List Char} (hc : isNameStart c = true)
    (h : ∀ d ∈ chars, isNameChar d = true) : Reads (c :: chars) [.name (String.ofList (c :: chars))] := by
  refine ⟨[], .name (chars.reverse ++ [c]), [.name (String.ofList (c :: chars))], ?_, ?_, rfl⟩
  · rw [run, step, begin_of_isNameStart hc, Option.bind_some, run_name _ h]
    rfl
  · simp [Place.finish, nameOf]

/-- What is formed like a name is one lexeme; a line feed behind it is a blank. -/
theorem reads_nameLike {name : String} (h : isNameLike name = true) :
    Reads name.toList [.name (String.ofList (dropLineFeed name.toList))] := by
  rw [isNameLike] at h
  split at h
  · cases h
  · rename_i c rest hchars
    rw [Bool.and_eq_true, List.all_eq_true] at h
    have hword := reads_word h.1 h.2
    rw [hchars]
    rcases eq_dropLineFeed_or name.toList with heq | heq
    · rw [heq, hchars]
      exact hword
    · have hfeed : Whole ['\n'] [] := rfl
      rw [heq, hchars]
      exact hword.append (by decide) hfeed.reads

/-- A name without such a line feed. -/
def IsWord (name : String) : Prop := isNameLike name = true ∧ '\n' ∉ name.toList

instance (name : String) : Decidable (IsWord name) := inferInstanceAs (Decidable (_ ∧ _))

theorem IsWord.reads {name : String} (h : IsWord name) : Reads name.toList [.name name] := by
  have hread := reads_nameLike h.1
  rwa [dropLineFeed_of_not_mem h.2, String.ofList_toList] at hread

/-- Where letters and digits may stand without being part of a literal. -/
def Place.IsWordy : Place → Prop
  | .between | .name _ | .number _ => True
  | _ => False

def HasNoSign (made : List Lexeme) : Prop := ∀ c, .sign c ∉ made

theorem exists_step {place : Place} (hplace : place.IsWordy) {c : Char} (hc : isNameChar c = true) :
    ∃ made next, step place c = some (made, next) ∧ next.IsWordy ∧ HasNoSign made := by
  have hbegin : ∃ next, begin c = some ([], next) ∧ next.IsWordy := by
    rw [isNameChar, Char.isAlphanum, Bool.or_right_comm, Bool.or_eq_true] at hc
    rcases hc with hstart | hdigit
    · exact ⟨_, begin_of_isNameStart hstart, trivial⟩
    · exact ⟨_, begin_of_isDigit hdigit, trivial⟩
  obtain ⟨next, hnext, hwordy⟩ := hbegin
  cases place with
  | between => exact ⟨[], next, hnext, hwordy, fun _ => List.not_mem_nil⟩
  | name read => exact ⟨[], _, if_pos hc, trivial, fun _ => List.not_mem_nil⟩
  | number read =>
      rw [step]
      split
      · exact ⟨[], _, rfl, trivial, fun _ => List.not_mem_nil⟩
      · refine ⟨[numberOf read], next, ?_, hwordy, fun _ => by simp [numberOf]⟩
        rw [beginBehind, hnext]
        rfl
  | quote => exact hplace.elim
  | twoQuotes => exact hplace.elim
  | inside isLong content progress => exact hplace.elim

/-- Letters, digits and underscores are names and numbers, however they are mixed. -/
theorem exists_reads_plain {chars : List Char} (h : ∀ c ∈ chars, isNameChar c = true) :
    ∃ made, Reads chars made ∧ HasNoSign made := by
  -- Behind a digit a letter may go on with the number or begin a name, so the place is left open.
  have hrun : ∀ place : Place, place.IsWordy → ∃ made last, run place chars = some (made, last) ∧
      last.IsWordy ∧ HasNoSign made := by
    induction chars with
    | nil => exact fun place hplace => ⟨[], place, rfl, hplace, fun _ => List.not_mem_nil⟩
    | cons c chars ih =>
        obtain ⟨hc, hchars⟩ := List.forall_mem_cons.mp h
        intro place hplace
        obtain ⟨made, next, hstep, hnext, hmade⟩ := exists_step hplace hc
        obtain ⟨others, last, hrun, hlast, hothers⟩ := ih hchars next hnext
        refine ⟨made ++ others, last, ?_, hlast, fun d => ?_⟩
        · rw [run, hstep, Option.bind_some, hrun]
          rfl
        · rw [List.mem_append, not_or]
          exact ⟨hmade d, hothers d⟩
  obtain ⟨made, last, hrun, hlast, hmade⟩ := hrun .between trivial
  have hfinish : ∃ due, last.finish = some due ∧ HasNoSign due := by
    cases last with
    | between => exact ⟨[], rfl, fun _ => List.not_mem_nil⟩
    | name read => exact ⟨_, rfl, fun _ => by simp [nameOf]⟩
    | number read => exact ⟨_, rfl, fun _ => by simp [numberOf]⟩
    | quote => exact hlast.elim
    | twoQuotes => exact hlast.elim
    | inside isLong content progress => exact hlast.elim
  obtain ⟨due, hdue, hfree⟩ := hfinish
  refine ⟨made ++ due, ⟨made, last, due, hrun, hdue, rfl⟩, fun d => ?_⟩
  rw [List.mem_append, not_or]
  exact ⟨hmade d, hfree d⟩

/-- Characters that go on with any number. -/
def Extends (chars : List Char) : Prop :=
  ∀ read, run (.number read) chars = some ([], .number (chars.reverse ++ read))

theorem Extends.nil : Extends [] := fun _ => rfl

theorem Extends.append {chars rest : List Char} (h : Extends chars) (hrest : Extends rest) :
    Extends (chars ++ rest) := by
  intro read
  rw [run_append (h read), hrest, List.reverse_append, List.append_assoc]
  rfl

theorem extends_digits {chars : List Char} (h : Numeral.IsDigits chars) : Extends chars := by
  induction chars with
  | nil => exact Extends.nil
  | cons c chars ih =>
      obtain ⟨hc, hchars⟩ := List.forall_mem_cons.mp h
      have hone : Extends [c] := by
        intro read
        have hgoesOn : goesOnNumber read c = true := by simp [goesOnNumber, hc]
        rw [run, step, if_pos hgoesOn]
        rfl
      exact hone.append (ih hchars)

theorem extends_exponent {mark digits : List Char} (hmark : mark ∈ Numeral.exponentMarks)
    (hdigits : Numeral.IsDigits digits) : Extends (mark ++ digits) := by
  have hmarks : ∀ mark ∈ Numeral.exponentMarks, Extends mark := by
    simp only [Numeral.exponentMarks, List.forall_mem_cons]
    exact ⟨fun _ => rfl, fun _ => rfl, fun _ => rfl, fun _ => rfl, fun _ => rfl, fun _ => rfl,
      List.forall_mem_nil _⟩
  exact (hmarks mark hmark).append (extends_digits hdigits)

theorem reads_digits {c : Char} {chars : List Char} (hc : c.isDigit = true) (h : Extends chars) :
    Reads (c :: chars) [.number (String.ofList (c :: chars))] := by
  refine ⟨[], .number (chars.reverse ++ [c]), [.number (String.ofList (c :: chars))], ?_, ?_, rfl⟩
  · rw [run, step, begin_of_isDigit hc, Option.bind_some, h]
    rfl
  · simp [Place.finish, numberOf]

/-- A numeral is a number, with a sign in front if it is negative. -/
theorem exists_reads_numeral {m : Numeral} (h : m.IsJson) :
    ∃ digits, Reads m.chars ((if m.negative then [.sign '-'] else []) ++ [.number digits]) := by
  have hfraction : Extends ((m.fraction.map ('.' :: ·)).getD []) := by
    cases hpart : m.fraction with
    | none => exact Extends.nil
    | some digits =>
        have hpoint : Extends ['.'] := fun _ => rfl
        exact hpoint.append (extends_digits (h.fraction digits hpart))
  have hexponent : Extends ((m.exponent.map fun e => e.1 ++ e.2).getD []) := by
    cases hpart : m.exponent with
    | none => exact Extends.nil
    | some e =>
        obtain ⟨hmark, -, hpower⟩ := h.exponent e hpart
        exact extends_exponent hmark hpower
  obtain ⟨digits, hunsigned⟩ : ∃ digits, Reads (m.whole ++ ((m.fraction.map ('.' :: ·)).getD [] ++
      (m.exponent.map fun e => e.1 ++ e.2).getD [])) [.number digits] := by
    obtain ⟨c, rest, hwhole⟩ := List.exists_cons_of_ne_nil h.whole_ne_nil
    have hdigits := h.whole
    rw [hwhole] at hdigits ⊢
    obtain ⟨hc, hrest⟩ := List.forall_mem_cons.mp hdigits
    exact ⟨_, reads_digits hc ((extends_digits hrest).append (hfraction.append hexponent))⟩
  refine ⟨digits, ?_⟩
  rw [Numeral.chars, List.append_assoc, List.append_assoc]
  cases m.negative with
  | false => exact hunsigned
  | true =>
      have hminus : Whole ['-'] [.sign '-'] := rfl
      exact hminus.append hunsigned

/-! ### Long literals -/

/-- Characters that a long literal goes on through. -/
def Passes (chars : List Char) : Prop :=
  ∀ content, ∃ content', run (.inside true content (.through 0)) chars =
    some ([], .inside true content' (.through 0))

theorem Passes.append {chars rest : List Char} (h : Passes chars) (hrest : Passes rest) :
    Passes (chars ++ rest) := by
  intro content
  obtain ⟨between, hrun⟩ := h content
  obtain ⟨last, hlast⟩ := hrest between
  exact ⟨last, by rw [run_append hrun, hlast]; rfl⟩

theorem passes_of_isOrdinary {chars : List Char} (h : ∀ c ∈ chars, isOrdinary c = true) : Passes chars := by
  induction chars with
  | nil => exact fun content => ⟨content, rfl⟩
  | cons c chars ih =>
      obtain ⟨hc, hchars⟩ := List.forall_mem_cons.mp h
      have hone : Passes [c] := fun content => ⟨c :: content, by
        rw [run, step, readInside, readThrough_of_isOrdinary true content hc]
        rfl⟩
      exact hone.append (ih hchars)

/-- A long literal whose text goes through is one lexeme. -/
theorem exists_whole_long {chars : List Char} (h : Passes chars) :
    ∃ s, Whole ("\"\"\"".toList ++ (chars ++ "\"\"\"".toList)) [.text s] := by
  obtain ⟨content, hrun⟩ := h []
  have hopening : run .between "\"\"\"".toList = some ([], .inside true [] (.through 0)) := rfl
  have hclosing : run (.inside true content (.through 0)) "\"\"\"".toList =
      some ([.text (String.ofList content.reverse)], .between) := rfl
  refine ⟨String.ofList content.reverse, ?_⟩
  rw [Whole, run_append hopening, run_append hrun, hclosing]
  rfl

/-! ### Used names -/

/-- How deep in brackets code is behind a sign. -/
def depthBehind (depth : Nat) (c : Char) : Nat :=
  if "([\x7b".toList.contains c then depth + 1
  else if ")]\x7d".toList.contains c then depth - 1
  else depth

/-- Whether code goes on with a single sign of equality. -/
def isGivenValue : List Lexeme → Bool
  | .sign '=' :: rest => rest.head? != some (.sign '=')
  | _ => false

/-- The names that code uses. A name in brackets that is given a value is that of an argument. -/
def usedFrom : Nat → List Lexeme → List String
  | _, [] => []
  | depth, .sign c :: rest => usedFrom (depthBehind depth c) rest
  | depth, .name s :: rest =>
    if s ∈ keywords ∨ (0 < depth ∧ isGivenValue rest = true) then usedFrom depth rest
    else s :: usedFrom depth rest
  | depth, _ :: rest => usedFrom depth rest

/-- What a line evaluates: of an attribute its annotation and its value, of a class its bases. -/
def evaluated : List Lexeme → List Lexeme
  | .name _ :: .sign ':' :: rest => rest
  | .name _ :: .sign '=' :: rest => rest
  | .name "class" :: rest => rest.dropWhile (· != .sign '(')
  | lexemes => lexemes

/-- The names that a line uses, if it can be read. -/
def usedNames? (line : String) : Option (List String) :=
  (lex? line).map fun lexemes => usedFrom 0 (evaluated lexemes)

example : usedNames? "    age: Optional[int] = Field(default=None, ge=1.5e3, description=\"Any\")" =
    some ["Optional", "int", "Field"] := by rfl

example : usedNames? "class Post(BaseModel):" = some ["BaseModel"] := by rfl

theorem mem_usedFrom_name {depth : Nat} {s name : String} {rest : List Lexeme}
    (h : name ∈ usedFrom depth (.name s :: rest)) : name = s ∨ name ∈ usedFrom depth rest := by
  rw [usedFrom] at h
  split at h
  · exact Or.inr h
  · exact List.mem_cons.mp h

/-- Of a class, the bases are evaluated, whatever its name is read as. -/
theorem evaluated_class {made : List Lexeme} (h : HasNoSign made) (rest : List Lexeme) :
    evaluated (.name "class" :: (made ++ .sign '(' :: rest)) = .sign '(' :: rest := by
  have hdrop : (made ++ Lexeme.sign '(' :: rest).dropWhile (· != .sign '(') = .sign '(' :: rest := by
    refine List.dropWhile_append_of_pos fun m hm => bne_iff_ne.mpr ?_
    rintro rfl
    exact h '(' hm
  cases made with
  | nil => rfl
  | cons m made =>
      cases m with
      | sign c => exact absurd List.mem_cons_self (h c)
      | name s => exact hdrop
      | number digits => exact hdrop
      | text s => exact hdrop

/-- Lexemes that use no names, at least so deep in brackets. -/
def Quiet (low : Nat) (made : List Lexeme) : Prop :=
  ∀ depth, low ≤ depth → ∀ rest, usedFrom depth (made ++ rest) = usedFrom depth rest

theorem Quiet.nil (low : Nat) : Quiet low [] := fun _ _ _ => rfl

theorem Quiet.append {low : Nat} {made others : List Lexeme} (h : Quiet low made) (hothers : Quiet low others) :
    Quiet low (made ++ others) := by
  intro depth hdepth rest
  rw [List.append_assoc, h depth hdepth, hothers depth hdepth]

theorem quiet_intercalate {low : Nat} {between : List Lexeme} (hbetween : Quiet low between)
    {groups : List (List Lexeme)} (h : ∀ group ∈ groups, Quiet low group) :
    Quiet low (List.intercalate between groups) := by
  induction groups with
  | nil => exact Quiet.nil low
  | cons group groups ih =>
      obtain ⟨hgroup, hgroups⟩ := List.forall_mem_cons.mp h
      cases groups with
      | nil =>
          rw [List.intercalate_singleton]
          exact hgroup
      | cons second groups =>
          rw [List.intercalate_cons_cons]
          exact (hgroup.append hbetween).append (ih hgroups)

/-- The lexemes of the literal of a scalar. -/
inductive IsValue : List Lexeme → Prop where
  | word {s : String} (h : s ∈ ["None", "True", "False"]) : IsValue [.name s]
  | number (digits : String) : IsValue [.number digits]
  | negative (digits : String) : IsValue [.sign '-', .number digits]
  | text (s : String) : IsValue [.text s]

theorem IsValue.quiet {made : List Lexeme} (h : IsValue made) : Quiet 0 made := by
  intro depth _ rest
  cases h with
  | word hs =>
      have hkeyword : ∀ s ∈ ["None", "True", "False"], s ∈ keywords := by decide
      exact if_pos (Or.inl (hkeyword _ hs))
  | number digits => rfl
  | negative digits => rfl
  | text s => rfl

/-- In the brackets of a call, an argument with its name uses no names. -/
theorem IsValue.quiet_argument {made : List Lexeme} (h : IsValue made) (argument : String) :
    Quiet 1 (.name argument :: .sign '=' :: made) := by
  intro depth hdepth rest
  have hgiven : isGivenValue (.sign '=' :: (made ++ rest)) = true := by
    cases h <;> rfl
  have hname : usedFrom depth (.name argument :: .sign '=' :: (made ++ rest)) =
      usedFrom depth (.sign '=' :: (made ++ rest)) := if_pos (Or.inr ⟨hdepth, hgiven⟩)
  exact hname.trans (h.quiet depth (Nat.zero_le depth) rest)

end ApiScaffold.Lexing
