import Mathlib
import ApiScaffold.Proofs.Text.Lines

/-! Expressions of generated code, read back by the rules of the code: a literal of a text ends at the first
quote that no backslash takes with it, and a tuple of one item has a comma behind the item. -/

namespace ApiScaffold.Code

open Text

/-- A token of an expression: the text that a literal denotes, or a character outside of literals. -/
inductive Token where
  | text (s : String)
  | mark (c : Char)
  deriving DecidableEq, Repr

/-- The character that a backslash and a letter stand for. -/
def escaped? : Char → Option Char
  | '"' => some '"'
  | '\\' => some '\\'
  | 'n' => some '\n'
  | 'r' => some '\r'
  | 't' => some '\t'
  | 'b' => some '\x08'
  | 'f' => some '\x0c'
  | _ => none

/-- The character that four hexadecimal digits stand for. -/
def unit? (digits : List Char) : Option Char :=
  (hexNumber? digits).bind fun code => if code.isValidChar then some (Char.ofNat code) else none

/-- Reads an expression, given the reversed content of the literal under way, if there is one. -/
def tokens? : Option (List Char) → List Char → Option (List Token)
  | none, [] => some []
  | none, c :: rest =>
    if c = '"' then tokens? (some []) rest else (tokens? none rest).map (.mark c :: ·)
  | some _, [] => none
  | some content, c :: rest =>
    if c = '"' then (tokens? none rest).map (.text (String.ofList content.reverse) :: ·)
    else if c = '\\' then
      match rest with
      | 'u' :: d₁ :: d₂ :: d₃ :: d₄ :: rest =>
        (unit? [d₁, d₂, d₃, d₄]).bind fun e => tokens? (some (e :: content)) rest
      | letter :: rest => (escaped? letter).bind fun e => tokens? (some (e :: content)) rest
      | [] => none
    else if c = '\n' ∨ c = '\r' then none
    else tokens? (some (c :: content)) rest

/-- The text that an expression denotes, if it is a literal. -/
def text? (expression : String) : Option String :=
  match tokens? none expression.toList with
  | some [.text s] => some s
  | _ => none

/-- The items up to the bracket that closes a tuple; a comma may stand before it. -/
def items? : List Token → Option (List String)
  | [.text s, .mark ')'] => some [s]
  | .text s :: .mark ',' :: rest =>
    if rest = [.mark ')'] then some [s] else (items? rest).map (s :: ·)
  | _ => none

/-- The texts of a tuple. A single literal in brackets is none. -/
def tupleItems? : List Token → Option (List String)
  | [.mark '(', .mark ')'] => some []
  | [.mark '(', .text _, .mark ')'] => none
  | .mark '(' :: rest => items? rest
  | _ => none

/-- The texts that an expression denotes, if it is a tuple of literals; blanks do not count. -/
def tuple? (expression : String) : Option (List String) :=
  (tokens? none expression.toList).bind fun tokens => tupleItems? (tokens.filter (· != .mark ' '))

/-! ### Texts -/

section Texts

variable {content : List Char} {c : Char} {rest : List Char}

theorem tokens?_of_ne (h : c ≠ '"') : tokens? none (c :: rest) = (tokens? none rest).map (.mark c :: ·) := by
  rw [tokens?.eq_def]
  exact if_neg h

theorem tokens?_closing :
    tokens? (some content) ('"' :: rest) =
      (tokens? none rest).map (.text (String.ofList content.reverse) :: ·) := by
  rw [tokens?.eq_def]
  exact if_pos rfl

theorem tokens?_of_isOrdinary (h : isOrdinary c = true) :
    tokens? (some content) (c :: rest) = tokens? (some (c :: content)) rest := by
  have hquote : c ≠ '"' := ne_of_isOrdinary h (by decide)
  have hslash : c ≠ '\\' := ne_of_isOrdinary h (by decide)
  have hend : ¬(c = '\n' ∨ c = '\r') :=
    not_or.mpr ⟨ne_of_isOrdinary h (by decide), ne_of_isOrdinary h (by decide)⟩
  rw [tokens?.eq_def]
  simp only [if_neg hquote, if_neg hslash, if_neg hend]

/-- A character of a text is read back from what stands for it. -/
theorem tokens?_escapedCode (content : List Char) (c : Char) (rest : List Char) :
    tokens? (some content) (escapedCode .controls c.toNat ++ rest) = tokens? (some (c :: content)) rest := by
  have hcontrols : ∀ code < 0x20, tokens? (some content) (escapedCode .controls code ++ rest) =
      tokens? (some (Char.ofNat code :: content)) rest := by
    intro code hcode
    interval_cases code <;> rfl
  rcases control_or_mark_or_isOrdinary c with hlow | (rfl | rfl) | hordinary
  · rw [hcontrols _ hlow, Char.ofNat_toNat]
  · rfl
  · rfl
  · rw [escapedCode_of_isOrdinary hordinary, List.singleton_append, tokens?_of_isOrdinary hordinary]

end Texts

/-- A literal is read back as its text, whatever stands behind it. -/
theorem tokens?_textLiteral (s : String) (rest : List Char) :
    tokens? none ((textLiteral s).toList ++ rest) = (tokens? none rest).map (.text s :: ·) := by
  have hbody : ∀ (chars content : List Char),
      tokens? (some content)
          (chars.flatMap (fun c => escapedCode .controls c.toNat) ++ '"' :: rest) =
        (tokens? none rest).map (.text (String.ofList (content.reverse ++ chars)) :: ·) := by
    intro chars
    induction chars with
    | nil =>
        intro content
        rw [List.flatMap_nil, List.nil_append, tokens?_closing, List.append_nil]
    | cons c chars ih =>
        intro content
        rw [List.flatMap_cons, List.append_assoc, tokens?_escapedCode, ih, List.reverse_cons,
          List.append_assoc, List.singleton_append]
  have hwhole := hbody s.toList []
  rw [List.reverse_nil, List.nil_append, String.ofList_toList] at hwhole
  rw [toList_textLiteral, List.append_assoc, List.cons_append]
  exact hwhole

theorem text?_textLiteral (s : String) : text? (textLiteral s) = some s := by
  have htokens := tokens?_textLiteral s []
  rw [List.append_nil] at htokens
  rw [text?, htokens]
  rfl

/-! ### Tuples -/

/-- The tokens of items behind the first one. -/
def following (items : List String) : List Token :=
  items.flatMap fun s => [.mark ',', .mark ' ', .text s]

theorem tokens?_intercalate (s : String) (items : List String) (rest : List Char) :
    tokens? none ((String.intercalate ", " ((s :: items).map textLiteral)).toList ++ rest) =
      (tokens? none rest).map ((.text s :: following items) ++ ·) := by
  induction items generalizing s with
  | nil => exact tokens?_textLiteral s rest
  | cons second items ih =>
      have hmark : ", ".toList = [',', ' '] := rfl
      rw [List.map_cons, List.map_cons, String.intercalate_cons_cons, String.toList_append,
        String.toList_append, hmark, List.append_assoc, List.append_assoc, tokens?_textLiteral]
      have hrest := ih second
      rw [List.map_cons] at hrest
      rw [List.cons_append, List.cons_append, List.nil_append, tokens?, if_neg (by decide), tokens?,
        if_neg (by decide), hrest]
      cases tokens? none rest <;> rfl

theorem items?_following (s : String) (items : List String) :
    items? (((Token.text s :: following items) ++ [Token.mark ')']).filter (· != .mark ' ')) =
      some (s :: items) := by
  induction items generalizing s with
  | nil => rfl
  | cons second items ih =>
      have hrest := ih second
      have htokens : ((Token.text s :: following (second :: items)) ++ [Token.mark ')']).filter
            (· != .mark ' ') =
          .text s :: .mark ',' ::
            ((Token.text second :: following items) ++ [Token.mark ')']).filter (· != .mark ' ') := by
        rw [following, List.flatMap_cons]
        rfl
      have hgoesOn : ((Token.text second :: following items) ++ [Token.mark ')']).filter
          (· != .mark ' ') ≠ [Token.mark ')'] := by
        rw [List.cons_append, List.filter_cons_of_pos rfl]
        simp
      rw [htokens, items?, if_neg hgoesOn, hrest]
      rfl

/-- Every list of texts is read back from its tuple. -/
theorem tuple?_tupleLiteral (items : List String) : tuple? (tupleLiteral items) = some items := by
  have hopening : "(".toList = ['('] := rfl
  have hclosing : ")".toList = [')'] := rfl
  rw [tuple?]
  match items with
  | [] => rfl
  | [s] =>
      have htokens : tokens? none (tupleLiteral [s]).toList =
          some [.mark '(', .text s, .mark ',', .mark ')'] := by
        have hline : tupleLiteral [s] = "(" ++ textLiteral s ++ ",)" := by
          simp [tupleLiteral, tupleOf]
        rw [hline, String.toList_append, String.toList_append, hopening, List.append_assoc,
          List.singleton_append, tokens?_of_ne (by decide), tokens?_textLiteral]
        rfl
      rw [htokens]
      rfl
  | s :: second :: items =>
      have htokens : tokens? none (tupleLiteral (s :: second :: items)).toList =
          some (.mark '(' :: ((Token.text s :: following (second :: items)) ++ [Token.mark ')'])) := by
        have hline : tupleLiteral (s :: second :: items) =
            "(" ++ String.intercalate ", " ((s :: second :: items).map textLiteral) ++ ")" := rfl
        rw [hline, String.toList_append, String.toList_append, hopening, hclosing, List.append_assoc,
          List.singleton_append, tokens?_of_ne (by decide), tokens?_intercalate]
        rfl
      rw [htokens, Option.bind_some, List.filter_cons_of_pos rfl, tupleItems?, items?_following]
      all_goals simp [following]

end ApiScaffold.Code
