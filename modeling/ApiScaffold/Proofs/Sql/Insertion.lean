import Mathlib
import ApiScaffold.Number.Basic
import ApiScaffold.Proofs.Sql.Statements

/-! Insertions that are read from the tokens of a script, with their rows of literals. A row counts up to
the first one behind which something is to be given back. -/

namespace ApiScaffold

/-- The items up to the first that stops, with that one. -/
def throughFirst {α : Type} (stops : α → Bool) : List α → List α
  | [] => []
  | item :: rest => item :: if stops item then [] else throughFirst stops rest

theorem throughFirst_isPrefix {α : Type} (stops : α → Bool) (items : List α) :
    throughFirst stops items <+: items := by
  induction items with
  | nil => exact List.nil_prefix
  | cons item rest ih =>
      rw [throughFirst, List.cons_prefix_cons]
      refine ⟨rfl, ?_⟩
      split
      · exact List.nil_prefix
      · exact ih

theorem throughFirst_eq_self {α : Type} {stops : α → Bool} {items : List α} :
    throughFirst stops items = items ↔ ∀ item ∈ items.dropLast, stops item = false := by
  induction items with
  | nil => simp [throughFirst]
  | cons item rest ih =>
      cases rest with
      | nil => simp [throughFirst]
      | cons other rest =>
          rw [throughFirst, List.dropLast_cons_cons, List.forall_mem_cons, ← ih]
          cases stops item <;> simp

namespace Sql

/-! ### Literals -/

/-- A literal value. -/
inductive Literal where
  | null
  | text (s : String)
  | integer (i : Int)
  deriving DecidableEq, Repr

/-- A literal as it is written. -/
def Literal.written : Literal → String
  | .null => "NULL"
  | .text s => textLiteral s
  | .integer i => integerText i

/-- Reads digits. -/
def readDigits (chars : List Char) : Option Nat :=
  if !chars.isEmpty && chars.all Char.isDigit then some (Nat.ofDigitChars 10 chars 0) else none

/-- Reads a decimal integer, perhaps with a sign. -/
def readInteger : List Char → Option Int
  | '-' :: digits => (readDigits digits).map fun n => -(n : Int)
  | digits => (readDigits digits).map fun n => (n : Int)

theorem readDigits_toDigits (n : Nat) : readDigits (Nat.toDigits 10 n) = some n := by
  have hne : (Nat.toDigits 10 n).isEmpty = false :=
    List.isEmpty_eq_false_iff.mpr Nat.toDigits_ne_nil
  have hdigits : (Nat.toDigits 10 n).all Char.isDigit = true :=
    List.all_eq_true.mpr fun c hc => Nat.isDigit_of_mem_toDigits (by decide) (by decide) hc
  rw [readDigits, hne, hdigits]
  simp

theorem readInteger_integerText (i : Int) : readInteger (integerText i).toList = some i := by
  cases i with
  | ofNat n =>
      -- Digits do not begin with the sign, so the second equation of the reader applies.
      have hsign : ∀ rest, Nat.toDigits 10 n = '-' :: rest → False := by
        intro rest heq
        have hdigit := @Nat.isDigit_of_mem_toDigits 10 n '-' (by decide) (by decide)
          (heq ▸ List.mem_cons_self)
        cases hdigit
      rw [integerText, Nat.toList_repr, readInteger.eq_2 _ hsign, readDigits_toDigits]
      rfl
  | negSucc n =>
      have hsign : "-".toList = ['-'] := rfl
      rw [integerText, String.toList_append, hsign, List.singleton_append, readInteger,
        Nat.toList_repr, readDigits_toDigits]
      rfl

/-- The literal that a token is. -/
def Token.literal? : Token → Option Literal
  | .text s => some (.text s)
  | .word s => if s = "NULL" then some .null else (readInteger s.toList).map .integer
  | _ => none

/-- The token of a literal as it is written. -/
def Literal.token : Literal → Token
  | .null => .word "NULL"
  | .text s => .text s
  | .integer i => .word (integerText i)

theorem integerText_ne_null (i : Int) : integerText i ≠ "NULL" := by
  intro heq
  have hread := readInteger_integerText i
  rw [heq] at hread
  cases hread

theorem literal?_token (literal : Literal) : literal.token.literal? = some literal := by
  cases literal with
  | null => rfl
  | text s => rfl
  | integer i =>
      rw [Literal.token, Token.literal?, if_neg (integerText_ne_null i), readInteger_integerText]
      rfl

/-- **Literals are read back.** A text may hold whatever it does: it is one token. -/
theorem reads_literal (literal : Literal) : Reading.Reads literal.written.toList [literal.token] := by
  cases literal with
  | null => exact @Reading.reads_word "NULL".toList (by decide) (List.all_eq_true.mp (by decide))
  | text s =>
      have henclosed := Reading.reads_enclosed .text s
      rwa [Reading.Quote.token, String.ofList_toList] at henclosed
  | integer i =>
      have hdigits : ∀ n : Nat, ∀ c ∈ Nat.toDigits 10 n, c.isDigit = true := fun n c hc =>
        Nat.isDigit_of_mem_toDigits (by decide) (by decide) hc
      rw [Literal.written, Literal.token, ← @String.ofList_toList (integerText i)]
      cases i with
      | ofNat n =>
          rw [integerText, String.toList_ofList, Nat.toList_repr]
          refine Reading.reads_word Nat.toDigits_ne_nil fun c hc => ?_
          simp [Reading.isWordChar, Char.isAlphanum, hdigits n c hc]
      | negSucc n =>
          rw [integerText, String.toList_ofList, String.toList_append, Nat.toList_repr]
          exact Reading.reads_signed Nat.toDigits_ne_nil (hdigits (n + 1))

/-! ### Rows -/

/-- Reads the rows of an insertion, given the literals of a row that were read. -/
def readRows (row : List Literal) : List Token → Option (List (List Literal) × List Token)
  | token :: .comma :: rest => token.literal?.bind fun literal => readRows (row ++ [literal]) rest
  | token :: .closes :: .comma :: .opens :: rest =>
    token.literal?.bind fun literal =>
      (readRows [] rest).map fun (rows, after) => ((row ++ [literal]) :: rows, after)
  | token :: .closes :: rest => token.literal?.map fun literal => ([row ++ [literal]], rest)
  | _ => none

/-- Whether nothing follows rows but what they are to give back. -/
def isReturning : List Token → Bool
  | [] => true
  | token :: _ => token == .word "RETURNING"

/-- The tokens of literals with commas between them. -/
def literalTokens (row : List Literal) : List Token :=
  List.intercalate [.comma] (row.map fun literal => [literal.token])

/-- The tokens of a row and of a clause behind it. -/
def valueTokens (clause : List Token) (row : List Literal) : List Token :=
  .opens :: (literalTokens row ++ .closes :: clause)

theorem readRows_literals {row : List Literal} (hne : row ≠ []) (before : List Literal)
    (rest : List Token) :
    readRows before (literalTokens row ++ rest) =
      readRows (before ++ row.dropLast) ((row.getLast hne).token :: rest) := by
  -- Every literal but the last has a comma behind it and joins those before it.
  induction row generalizing before with
  | nil => exact absurd rfl hne
  | cons literal row ih =>
      cases row with
      | nil => simp [literalTokens]
      | cons other row =>
          have hothers := ih (List.cons_ne_nil other row) (before ++ [literal])
          rw [literalTokens, List.map_cons] at hothers
          rw [literalTokens, List.map_cons, List.map_cons, List.intercalate_cons_cons]
          simp only [List.cons_append, List.nil_append]
          rw [readRows, literal?_token, Option.bind_some, hothers, List.dropLast_cons_cons,
            List.append_assoc, List.singleton_append, List.getLast_cons (List.cons_ne_nil other row)]

/-- The last row, behind which nothing but a clause stands. -/
theorem readRows_last {row : List Literal} (hne : row ≠ []) {after : List Token}
    (hafter : isReturning after = true) :
    readRows [] (literalTokens row ++ .closes :: after) = some ([row], after) := by
  have hend : ∀ rest, after = .comma :: .opens :: rest → False := by
    rintro rest rfl
    cases hafter
  rw [readRows_literals hne, readRows.eq_3 _ _ _ hend, literal?_token, List.nil_append,
    Option.map_some, List.dropLast_append_getLast]

theorem readRows_next {row : List Literal} (hne : row ≠ []) (rest : List Token) :
    readRows [] (literalTokens row ++ .closes :: .comma :: .opens :: rest) =
      (readRows [] rest).map fun (rows, after) => (row :: rows, after) := by
  rw [readRows_literals hne, readRows, literal?_token, List.nil_append, Option.bind_some,
    List.dropLast_append_getLast]

/-- Rows count up to the first one with a clause behind it. -/
theorem readRows_values {α : Type} {items : List α} {row : α → List Literal}
    {clause : α → List Token} (hne : items ≠ []) (hrow : ∀ item ∈ items, row item ≠ [])
    (hclause : ∀ item ∈ items, isReturning (clause item) = true) :
    ∃ rest after, List.intercalate [.comma] (items.map fun item => valueTokens (clause item) (row item)) =
        .opens :: rest ∧
      readRows [] rest = some ((throughFirst (fun item => !(clause item).isEmpty) items).map row, after) ∧
        isReturning after = true := by
  -- The reader goes on to the next row only over a comma, and a clause comes before it.
  induction items with
  | nil => exact absurd rfl hne
  | cons item items ih =>
      obtain ⟨hfirst, hothers⟩ := List.forall_mem_cons.mp hrow
      obtain ⟨hreturning, hclauses⟩ := List.forall_mem_cons.mp hclause
      cases items with
      | nil =>
          refine ⟨_, clause item, List.intercalate_singleton, ?_, hreturning⟩
          rw [readRows_last hfirst hreturning, throughFirst, throughFirst, ite_self]
          rfl
      | cons other items =>
          obtain ⟨rest, after, hrest, hread, hafter⟩ := ih (List.cons_ne_nil other items) hothers hclauses
          rw [List.map_cons] at hrest
          rw [List.map_cons, List.map_cons, List.intercalate_cons_cons, hrest, throughFirst]
          cases hend : clause item with
          | nil =>
              refine ⟨literalTokens (row item) ++ .closes :: .comma :: .opens :: rest, after, ?_, ?_,
                hafter⟩
              · simp [valueTokens]
              · rw [readRows_next hfirst, hread]
                rfl
          | cons token tokens =>
              have hstop : isReturning (token :: (tokens ++ .comma :: .opens :: rest)) = true := by
                rw [hend] at hreturning
                exact hreturning
              refine ⟨literalTokens (row item) ++ .closes :: token :: (tokens ++ .comma :: .opens :: rest),
                _, ?_, ?_, hstop⟩
              · simp [valueTokens]
              · rw [readRows_last hfirst hstop]
                rfl

/-! ### Insertions -/

/-- An insertion: the table, the columns that are given, and the rows. -/
structure Insertion where
  table : String
  columns : List String
  rows : List (List Literal)
  deriving DecidableEq, Repr

/-- Reads an insertion. -/
def readInsertion (statement : List Token) : Option Insertion :=
  match afterWords ["INSERT", "INTO"] statement with
  | some (table :: .opens :: rest) => do
    let table ← table.name?
    let (columns, rest) ← readNames rest
    match ← afterWords ["VALUES"] rest with
    | .opens :: rest =>
      let (rows, after) ← readRows [] rest
      if isReturning after then some ⟨table, columns, rows⟩ else none
    | _ => none
  | _ => none

/-- Reads a script that is one insertion. -/
def readSeed (script : String) : Option Insertion :=
  match statements script with
  | some [statement] => readInsertion statement
  | _ => none

/-- The tokens of an insertion of rows. -/
def insertionTokens (table : String) (columns : List String) (values : List Token) : List Token :=
  .word "INSERT" :: .word "INTO" :: nameToken table :: nameListTokens columns ++
    .word "VALUES" :: values

theorem readInsertion_tokens {columns : List String} (hne : columns ≠ []) (table : String)
    {tokens after : List Token} {rows : List (List Literal)}
    (hrows : readRows [] tokens = some (rows, after)) (hafter : isReturning after = true) :
    readInsertion (insertionTokens table columns (.opens :: tokens)) = some ⟨table, columns, rows⟩ := by
  have hwords : afterWords ["INSERT", "INTO"] (insertionTokens table columns (.opens :: tokens)) =
      some (nameToken table :: nameListTokens columns ++ .word "VALUES" :: .opens :: tokens) := rfl
  have hnames := readNames_intercalate hne (.word "VALUES" :: .opens :: tokens)
  have hvalues : afterWords ["VALUES"] (.word "VALUES" :: .opens :: tokens) = some (.opens :: tokens) := rfl
  rw [readInsertion, hwords]
  simp only [nameListTokens, List.cons_append, List.append_assoc, List.nil_append]
  simp [name?_nameToken, hnames, hvalues, hrows, hafter]

theorem ends_ne_token (literal : Literal) : Token.ends ≠ literal.token := by
  cases literal <;> exact Token.noConfusion

theorem ends_not_mem_valueTokens {clause : List Token} (h : Token.ends ∉ clause) (row : List Literal) :
    Token.ends ∉ valueTokens clause row := by
  have hliterals : Token.ends ∉ literalTokens row := ends_not_mem_commas ends_ne_token row
  simp [valueTokens, hliterals, h]

theorem ends_not_mem_insertionTokens {values : List Token} (h : Token.ends ∉ values) (table : String)
    (columns : List String) : Token.ends ∉ insertionTokens table columns values := by
  have hnames := ends_not_mem_nameListTokens columns
  simp [insertionTokens, hnames, ends_ne_nameToken, h]

end Sql

end ApiScaffold
