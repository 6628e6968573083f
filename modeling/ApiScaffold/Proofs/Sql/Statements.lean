import Mathlib
import ApiScaffold.Proofs.Lists
import ApiScaffold.Proofs.Sql.Tokens

/-! Statements that are read from the tokens of a script, in particular those that create an index. -/

namespace ApiScaffold.Sql

/-! ### Scripts -/

/-- Splits tokens into statements, each of which a mark ends. -/
def splitStatements (current : List Token) : List Token → Option (List (List Token))
  | [] => if current.isEmpty then some [] else none
  | .ends :: rest => (splitStatements [] rest).map (current :: ·)
  | token :: rest => splitStatements (current ++ [token]) rest

/-- The statements of a script. -/
def statements (script : String) : Option (List (List Token)) :=
  (Reading.read script).bind (splitStatements [])

theorem splitStatements_append {current statement : List Token} (h : Token.ends ∉ statement)
    (rest : List Token) :
    splitStatements current (statement ++ .ends :: rest) =
      (splitStatements [] rest).map ((current ++ statement) :: ·) := by
  induction statement generalizing current with
  | nil => rw [List.nil_append, splitStatements, List.append_nil]
  | cons token statement ih =>
      rw [List.mem_cons, not_or] at h
      have hrest := @ih (current ++ [token]) h.2
      rw [List.append_assoc, List.singleton_append] at hrest
      rw [List.cons_append, ← hrest]
      cases token with
      | ends => exact absurd rfl h.1
      | _ => rfl

/-- Statements with their ends are split at these. -/
theorem splitStatements_flatMap {groups : List (List Token)} (h : ∀ group ∈ groups, Token.ends ∉ group) :
    splitStatements [] (groups.flatMap fun group => group ++ [.ends]) = some groups := by
  induction groups with
  | nil => rfl
  | cons group groups ih =>
      obtain ⟨hgroup, hgroups⟩ := List.forall_mem_cons.mp h
      rw [List.flatMap_cons, List.append_assoc, List.singleton_append,
        splitStatements_append hgroup, ih hgroups]
      rfl

/-- What follows words that come first. -/
def afterWords : List String → List Token → Option (List Token)
  | [], tokens => some tokens
  | expected :: words, .word s :: tokens => if s = expected then afterWords words tokens else none
  | _, _ => none

theorem afterWords_append (words : List String) (rest : List Token) :
    afterWords words (words.map Token.word ++ rest) = some rest := by
  induction words with
  | nil => rfl
  | cons first words ih => rw [List.map_cons, List.cons_append, afterWords, if_pos rfl, ih]

/-! ### Lists of names -/

/-- Reads names up to the mark that closes them. -/
def readNames : List Token → Option (List String × List Token)
  | token :: .comma :: rest =>
    token.name?.bind fun name => (readNames rest).map fun (names, after) => (name :: names, after)
  | token :: .closes :: rest => token.name?.map fun name => ([name], rest)
  | _ => none

theorem readNames_comma (token : Token) (rest : List Token) :
    readNames (token :: .comma :: rest) =
      token.name?.bind fun name => (readNames rest).map fun (names, after) => (name :: names, after) :=
  rfl

theorem readNames_intercalate {names : List String} (hne : names ≠ []) (rest : List Token) :
    readNames (List.intercalate [.comma] (names.map fun name => [nameToken name]) ++ .closes :: rest) =
      some (names, rest) := by
  induction names with
  | nil => exact absurd rfl hne
  | cons name names ih =>
      cases names with
      | nil => simp [readNames, name?_nameToken]
      | cons other names =>
          have hothers := ih (List.cons_ne_nil other names)
          rw [List.map_cons] at hothers
          rw [List.map_cons, List.map_cons, List.intercalate_cons_cons]
          simp only [List.cons_append, List.nil_append]
          rw [readNames_comma, name?_nameToken, hothers]
          rfl

/-- Reads names in parentheses, behind the mark that opens them. -/
def readNameList : List Token → Option (List String × List Token)
  | .closes :: rest => some ([], rest)
  | tokens => readNames tokens

/-- The tokens of names in parentheses. -/
def nameListTokens (names : List String) : List Token :=
  .opens :: (List.intercalate [.comma] (names.map fun name => [nameToken name]) ++ [.closes])

theorem ends_ne_nameToken (name : String) : Token.ends ≠ nameToken name := by
  rw [nameToken]
  split <;> exact Token.noConfusion

/-- Commas between other tokens end no statement. -/
theorem ends_not_mem_commas {α : Type} {token : α → Token} (h : ∀ item, Token.ends ≠ token item)
    (items : List α) : Token.ends ∉ List.intercalate [.comma] (items.map fun item => [token item]) := by
  refine not_mem_intercalate (by decide) fun group hgroup => ?_
  obtain ⟨item, -, rfl⟩ := List.mem_map.mp hgroup
  exact List.mem_singleton.not.mpr (h item)

theorem ends_not_mem_nameListTokens (names : List String) : Token.ends ∉ nameListTokens names := by
  have hnames := ends_not_mem_commas ends_ne_nameToken names
  simp [nameListTokens, hnames]

theorem readNameList_tokens (names : List String) (rest : List Token) :
    readNameList (List.intercalate [.comma] (names.map fun name => [nameToken name]) ++
      .closes :: rest) = some (names, rest) := by
  cases names with
  | nil => rfl
  | cons name names =>
      have hnames := readNames_intercalate (List.cons_ne_nil name names) rest
      rw [← hnames]
      have hopen : ∀ tokens, readNameList (nameToken name :: tokens) = readNames (nameToken name :: tokens) := by
        intro tokens
        rw [nameToken]
        split <;> rfl
      cases names with
      | nil => exact hopen _
      | cons other names =>
          rw [List.map_cons, List.map_cons, List.intercalate_cons_cons]
          exact hopen _

theorem reads_identifierList {names : List String} (h : ∀ name ∈ names, '\n' ∉ name.toList) :
    Reading.Reads (identifierList names).toList (nameListTokens names) := by
  have hopens : Reading.Whole ['('] [.opens] := by decide
  have hcloses : Reading.Whole [')'] [.closes] := by decide
  have hcomma : Reading.Whole (',' :: [' ']) [.comma] := by decide
  have hnames : List.Forall₂ Reading.Reads (names.map fun name => (identifier name).toList)
      (names.map fun name => [nameToken name]) := by
    rw [List.forall₂_map_left_iff, List.forall₂_map_right_iff, List.forall₂_same]
    exact fun name hname => reads_identifier (h name hname)
  have hclosed := Reading.reads_intercalate hcomma (by decide) hnames
    (hcloses.append .nil) (by decide)
  have hlist := hopens.append hclosed
  rw [List.append_nil] at hlist
  simp only [identifierList, String.toList_append, String.toList_intercalate, List.map_map,
    List.append_assoc]
  exact hlist

/-! ### Indexes -/

/-- An index with the table that it is created on. -/
structure CreatedIndex where
  table : String
  index : Index
  deriving DecidableEq, Repr

/-- The words that begin the creation of an index. -/
def indexHead (unique : Bool) : List String :=
  "CREATE" :: (if unique then ["UNIQUE"] else []) ++ ["INDEX", "IF", "NOT", "EXISTS"]

/-- Reads the name, the table and the columns of an index. -/
def readIndexBody (unique : Bool) : List Token → Option CreatedIndex
  | name :: .word "ON" :: table :: .opens :: rest => do
    let name ← name.name?
    let table ← table.name?
    let (columns, after) ← readNameList rest
    if after.isEmpty then some ⟨table, name, columns, unique⟩ else none
  | _ => none

/-- Reads a statement that creates an index unless one of its name is there. -/
def readIndex (statement : List Token) : Option CreatedIndex :=
  ((afterWords (indexHead true) statement).bind (readIndexBody true)).or
    ((afterWords (indexHead false) statement).bind (readIndexBody false))

/-- Reads a script that creates indexes. -/
def readIndexes (script : String) : Option (List CreatedIndex) :=
  (statements script).bind (List.mapM readIndex)

/-- The tokens of a statement that creates an index. -/
def indexTokens (created : CreatedIndex) : List Token :=
  (indexHead created.index.unique).map Token.word ++ nameToken created.index.name :: .word "ON" ::
    nameToken created.table :: nameListTokens created.index.columns

theorem readIndex_indexTokens (created : CreatedIndex) : readIndex (indexTokens created) = some created := by
  obtain ⟨table, name, columns, unique⟩ := created
  have hbody : readIndexBody unique (nameToken name :: .word "ON" :: nameToken table ::
      nameListTokens columns) = some ⟨table, name, columns, unique⟩ := by
    simp only [readIndexBody, nameListTokens, name?_nameToken, readNameList_tokens]
    rfl
  rw [readIndex, indexTokens]
  cases unique with
  | true => rw [afterWords_append, Option.bind_some, hbody, Option.some_or]
  | false =>
      have hplain : afterWords (indexHead true) ((indexHead false).map Token.word ++
          nameToken name :: .word "ON" :: nameToken table :: nameListTokens columns) = none := rfl
      rw [hplain, afterWords_append, Option.bind_some, hbody, Option.bind_none, Option.none_or]

theorem ends_not_mem_indexTokens (created : CreatedIndex) : Token.ends ∉ indexTokens created := by
  obtain ⟨table, name, columns, unique⟩ := created
  have hhead : Token.ends ∉ (indexHead unique).map Token.word := by
    intro h
    obtain ⟨word, -, heq⟩ := List.mem_map.mp h
    cases heq
  have hnames := ends_not_mem_nameListTokens columns
  simp [indexTokens, hhead, hnames, ends_ne_nameToken]

end ApiScaffold.Sql
