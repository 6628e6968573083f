import Mathlib
import ApiScaffold.Proofs.Number.Shortest
import ApiScaffold.Proofs.Sql.Definition
import ApiScaffold.Proofs.Sql.Skimming
import ApiScaffold.Proofs.Sql.Tidying

/-! Statements that create tables, read back. A column is found by its name among the items in parentheses,
and its default is the text behind the keyword. Every text that is a default is found, as tidying leaves it. -/

namespace ApiScaffold.Sql

open Text Skimming

/-! ### Reading -/

/-- The items between the commas of a list, up to the mark that closes it. -/
def itemsFrom (depth : Nat) (item : List Token) : List Token → List (List Token)
  | [] => [item]
  | .comma :: rest =>
    if depth = 0 then item :: itemsFrom 0 [] rest else itemsFrom depth (item ++ [.comma]) rest
  | .opens :: rest => itemsFrom (depth + 1) (item ++ [.opens]) rest
  | .closes :: rest => if depth = 0 then [item] else itemsFrom (depth - 1) (item ++ [.closes]) rest
  | token :: rest => itemsFrom depth (item ++ [token]) rest

/-- The items of the first list in parentheses. -/
def listItems (tokens : List Token) : List (List Token) :=
  itemsFrom 0 [] (tokens.dropWhile (· != .opens)).tail

/-- The text behind the keyword of a default. -/
def defaultText? : List Token → Option String
  | [] => none
  | token :: rest =>
    if token = .word "DEFAULT" then
      match rest with
      | .text s :: _ => some s
      | _ => none
    else defaultText? rest

/-- The text that a script stores in a column where nothing is given. Its name and its type are in front of
whatever else an item says of a column. -/
def storedText? (name : String) (script : String) : Option String :=
  ((listItems (Skimming.read script)).find? fun item => item.head?.bind Token.name? == some name).bind
    fun item => defaultText? (item.drop 2)

/-! ### Items -/

/-- Tokens that belong to the item they stand in. -/
def IsInner (token : Token) : Prop := token ≠ .comma ∧ token ≠ .opens ∧ token ≠ .closes

/-- Tokens that go on with whatever item is under way. -/
def IsItem (tokens : List Token) : Prop :=
  ∀ depth item rest, itemsFrom depth item (tokens ++ rest) = itemsFrom depth (item ++ tokens) rest

theorem IsItem.of_inner {tokens : List Token} (h : ∀ token ∈ tokens, IsInner token) : IsItem tokens := by
  intro depth item rest
  induction tokens generalizing item with
  | nil => rw [List.append_nil, List.nil_append]
  | cons token tokens ih =>
      obtain ⟨⟨hcomma, hopens, hcloses⟩, htokens⟩ := List.forall_mem_cons.mp h
      rw [List.cons_append, itemsFrom, ih htokens, List.append_assoc, List.singleton_append]
      · exact hcomma
      · exact hopens
      · exact hcloses

theorem IsItem.enclosed {tokens : List Token} (h : ∀ token ∈ tokens, IsInner token) :
    IsItem (.opens :: tokens ++ [.closes]) := by
  intro depth item rest
  have hinner : IsItem tokens := .of_inner h
  rw [List.cons_append, List.cons_append, itemsFrom, List.append_assoc, hinner, List.singleton_append,
    itemsFrom, if_neg (Nat.succ_ne_zero depth), Nat.add_sub_cancel]
  simp

theorem IsItem.append {tokens others : List Token} (h : IsItem tokens) (hothers : IsItem others) :
    IsItem (tokens ++ others) := by
  intro depth item rest
  rw [List.append_assoc, h, hothers, List.append_assoc]

/-- Items with commas behind them are found one by one. -/
theorem itemsFrom_flatMap {α : Type} {columns : List α} {tokens : α → List Token}
    (h : ∀ column ∈ columns, IsItem (tokens column)) (rest : List Token) :
    itemsFrom 0 [] (columns.flatMap (fun column => tokens column ++ [.comma]) ++ rest) =
      columns.map tokens ++ itemsFrom 0 [] rest := by
  induction columns with
  | nil => rfl
  | cons column columns ih =>
      obtain ⟨hcolumn, hcolumns⟩ := List.forall_mem_cons.mp h
      rw [List.flatMap_cons, List.append_assoc, List.append_assoc, hcolumn, List.singleton_append,
        itemsFrom, if_pos rfl, ih hcolumns, List.nil_append]
      rfl

/-- An item that has begun is found with what it began with. -/
theorem itemsFrom_cons (depth : Nat) (token : Token) (item tokens : List Token) :
    ∃ more others, itemsFrom depth (token :: item) tokens = (token :: more) :: others := by
  induction tokens generalizing depth item with
  | nil => exact ⟨item, [], rfl⟩
  | cons next rest ih =>
      have hlater : ∀ depth, ∃ more others,
          itemsFrom depth (token :: item ++ [next]) rest = (token :: more) :: others := fun depth =>
        ih depth (item ++ [next])
      cases next with
      | comma =>
          rw [itemsFrom]
          split
          · exact ⟨item, _, rfl⟩
          · exact hlater depth
      | opens =>
          rw [itemsFrom]
          exact hlater (depth + 1)
      | closes =>
          rw [itemsFrom]
          split
          · exact ⟨item, [], rfl⟩
          · exact hlater (depth - 1)
      | _ =>
          rw [itemsFrom]
          · exact hlater depth
          all_goals simp

/-! ### Parts of a statement -/

/-- A part of a statement that begins and ends with no blank, and what it is read as when it is tidied. -/
structure Part (chars : List Char) (tokens : List Token) : Prop where
  first : chars.head?.any (fun c => !isBlank c) = true
  last : chars.getLast?.any (fun c => !isBlank c) = true
  reads : Reads (tidyChars chars) tokens

section Parts

variable {chars others : List Char} {tokens otherTokens : List Token}

theorem Part.of_firm (hne : chars ≠ []) (hfirm : ∀ c ∈ chars, isBlank c = false) (h : Reads chars tokens) :
    Part chars tokens where
  first := by
    obtain ⟨c, rest, rfl⟩ := List.exists_cons_of_ne_nil hne
    simp [hfirm c List.mem_cons_self]
  last := by
    obtain ⟨front, c, rfl⟩ := (List.eq_nil_or_concat chars).resolve_left hne
    simp [hfirm c (by simp)]
  reads := (tidyChars_of_firm hfirm).symm ▸ h

theorem Part.ne_nil (h : Part chars tokens) : chars ≠ [] := by
  rintro rfl
  cases h.first

/-- Two parts with a blank between them. -/
theorem Part.append (h : Part chars tokens) (hothers : Part others otherTokens) :
    Part (chars ++ ' ' :: others) (tokens ++ otherTokens) where
  first := by rw [List.head?_append_of_ne_nil _ h.ne_nil]; exact h.first
  last := by
    rw [List.getLast?_append, List.getLast?_cons_of_ne_nil hothers.ne_nil]
    obtain ⟨c, hc, hfirm⟩ := (Option.any_eq_true _ _).mp hothers.last
    simp [hc, hfirm]
  reads := by
    have hblank : tidyChars [' '] = [' '] := rfl
    have hspace : Whole [' '] [] := fun before => by rw [List.append_nil]; rfl
    have hbehind : tidyChars (' ' :: others) = ' ' :: tidyChars others := by
      rw [← List.singleton_append, tidyChars_append (Or.inr hothers.first), hblank, List.singleton_append]
    rw [tidyChars_append (Or.inl h.last), hbehind]
    exact h.reads.append (by decide) (hspace.reads hothers.reads)

/-- A text in quotes is read as tidying leaves it. -/
theorem part_textLiteral (s : String) : Part (textLiteral s).toList [.text (tidied s)] where
  first := by
    rw [textLiteral, enclosed, String.toList_ofList, List.cons_append]
    rfl
  last := by
    rw [textLiteral, enclosed, String.toList_ofList, List.getLast?_concat]
    rfl
  reads := by
    have hread := reads_enclosed .text (tidied s)
    rw [Reading.Quote.token, String.ofList_toList] at hread
    rw [textLiteral, tidyChars_enclosed (by decide)]
    exact hread

end Parts

theorem isBlank_of_isNameChar {c : Char} (h : Naming.isNameChar c = true) : isBlank c = false := by
  have hcode := Naming.toNat_of_isNameChar h
  simp only [isBlank, isWhiteSpace, Bool.or_eq_false_iff, Bool.and_eq_false_imp, decide_eq_true_eq,
    decide_eq_false_iff_not, beq_eq_false_iff_ne]
  refine ⟨⟨⟨⟨⟨⟨⟨⟨⟨⟨?_, ?_⟩, ?_⟩, ?_⟩, ?_⟩, ?_⟩, ?_⟩, ?_⟩, ?_⟩, ?_⟩, ?_⟩ <;> omega

theorem part_identifier {name : String} (h : Naming.IsPlain name) :
    Part (identifier name).toList [nameToken name] := by
  have hname : ∀ c ∈ name.toList, isBlank c = false := fun c hc =>
    isBlank_of_isNameChar (Naming.isPlain_iff.mp h c hc)
  refine .of_firm ?_ ?_ (Skimming.reads_identifier h)
  · rw [identifier]
    split
    · simp [enclosed]
    · rename_i hbare
      intro hempty
      simp [needsQuotes, Naming.dropLineFeed, hempty] at hbare
  · rw [identifier]
    split
    · intro c hc
      rcases mem_enclosed hc with rfl | hmem
      · decide
      · exact hname c hmem
    · exact hname

/-! ### Columns -/

/-- A default that is no text is a word, which may stand in parentheses. -/
def ColumnDefault.IsSimple : ColumnDefault → Prop
  | .expression source => IsWord source.toList ∧ ∀ c ∈ source.toList, isBlank c = false
  | .text _ => True

/-- What a default is read as. -/
def ColumnDefault.tokens : ColumnDefault → List Token
  | .expression source =>
    if needsParentheses source then [.opens, .word source, .closes] else [.word source]
  | .text s => [.text (tidied s)]

/-- What a column is read as. -/
def Column.tokens (column : Column) : List Token :=
  [nameToken column.name, .word column.storage.name]
    ++ (column.default.map fun d => .word "DEFAULT" :: d.tokens).getD []
    ++ if column.nullable then [] else [.word "NOT", .word "NULL"]

theorem part_word {word : String} (hplain : Naming.IsPlain word) (hne : word.toList ≠ []) :
    Part word.toList [.word word] := by
  have hread := (isWord_of_isPlain hplain hne).reads
  rw [String.ofList_toList] at hread
  exact .of_firm hne (fun c hc => isBlank_of_isNameChar (Naming.isPlain_iff.mp hplain c hc)) hread

theorem ColumnDefault.part {default : ColumnDefault} (h : default.IsSimple) :
    Part default.written.toList default.tokens := by
  cases default with
  | text s => exact part_textLiteral s
  | expression source =>
      obtain ⟨hword, hfirm⟩ := h
      have hsource := hword.reads
      rw [String.ofList_toList] at hsource
      rw [written, tokens]
      split
      · have hopens : Whole ['('] [.opens] := fun _ => rfl
        have hcloses : Reads [')'] [.closes] := fun before c hc => rfl
        have hread := hopens.reads (hsource.append (by decide) hcloses)
        change Part ("(" ++ source ++ ")").toList [.opens, .word source, .closes]
        refine .of_firm (by simp) (fun c hc => ?_) (by simpa using hread)
        simp only [String.toList_append, List.mem_append] at hc
        rcases hc with (hmark | hsource) | hmark
        · exact List.mem_singleton.mp hmark ▸ rfl
        · exact hfirm c hsource
        · exact List.mem_singleton.mp hmark ▸ rfl
      · exact .of_firm hword.ne_nil hfirm hsource

theorem Column.part {column : Column} (hname : Naming.IsPlain column.name)
    (hdefault : ∀ default ∈ column.default, default.IsSimple) :
    Part column.definition.toList column.tokens := by
  have hstorage : Part column.storage.name.toList [.word column.storage.name] :=
    part_word (by cases column.storage <;> decide) (by cases column.storage <;> decide)
  have hdefaultWord : Part "DEFAULT".toList [.word "DEFAULT"] := part_word (by decide) (by decide)
  have hnot : Part "NOT".toList [.word "NOT"] := part_word (by decide) (by decide)
  have hnull : Part "NULL".toList [.word "NULL"] := part_word (by decide) (by decide)
  have hhead := (part_identifier hname).append hstorage
  have hmiddle : Part ((identifier column.name).toList ++ ' ' :: column.storage.name.toList ++
      ((column.default.map fun d => " DEFAULT " ++ d.written).getD "").toList)
        ([nameToken column.name, .word column.storage.name] ++
          (column.default.map fun d => .word "DEFAULT" :: d.tokens).getD []) := by
    cases hcase : column.default with
    | none => simpa using hhead
    | some default =>
        have hall := hhead.append (hdefaultWord.append (ColumnDefault.part (hdefault default hcase)))
        simpa using hall
  rw [definition, tokens]
  cases column.nullable with
  | true => simpa using hmiddle
  | false =>
      have hall := hmiddle.append (hnot.append hnull)
      simpa using hall

theorem Column.isItem (column : Column) : IsItem column.tokens := by
  have hword : ∀ word, IsInner (.word word) := fun word => by simp [IsInner]
  have hname : IsInner (nameToken column.name) := by
    rw [nameToken]
    split <;> simp [IsInner]
  refine (IsItem.append (.of_inner ?_) ?_).append (.of_inner ?_)
  · simp [hname, hword]
  · cases column.default with
    | none => exact .of_inner (List.forall_mem_nil _)
    | some default =>
        have hkeyword : IsItem [.word "DEFAULT"] := .of_inner (by simp [hword])
        change IsItem ([.word "DEFAULT"] ++ default.tokens)
        refine hkeyword.append ?_
        cases default with
        | text s => exact .of_inner (List.forall_mem_singleton.mpr (by simp [IsInner]))
        | expression source =>
            have hsource : ∀ token ∈ [Token.word source], IsInner token :=
              List.forall_mem_singleton.mpr (hword source)
            rw [ColumnDefault.tokens]
            split
            · exact .enclosed hsource
            · exact .of_inner hsource
  · split <;> simp [hword]

/-- The text that is a default, as tidying leaves it. -/
def Column.storedText? (column : Column) : Option String :=
  match column.default with
  | some (.text s) => some (tidied s)
  | _ => none

theorem Column.defaultText?_tokens (column : Column) :
    defaultText? (column.tokens.drop 2) = column.storedText? := by
  rw [tokens, storedText?]
  cases column.default with
  | none => cases column.nullable <;> simp [defaultText?]
  | some default =>
      cases default with
      | text s => simp [defaultText?, ColumnDefault.tokens]
      | expression source =>
          rw [Option.map_some, Option.getD_some, ColumnDefault.tokens]
          split <;> simp [defaultText?]

/-! ### Words of defaults -/

/-- Numerals have no two signs in a row. -/
theorem isCalm_chars {m : Numeral} (h : m.IsSql) : IsCalm m.chars := by
  have hdigits : ∀ {digits : List Char}, Numeral.IsDigits digits → '-' ∉ digits :=
    fun hdigits hmem => absurd (hdigits _ hmem) (by decide)
  have hhead : ∀ {digits : List Char}, Numeral.IsDigits digits → digits.head? ≠ some '-' :=
    fun hall heq => hdigits hall (List.mem_of_mem_head? heq)
  have hmarks : ∀ mark ∈ Numeral.exponentMarks, IsCalm mark ∧ mark.head? ≠ some '-' ∧ mark ≠ [] := by decide
  have hwhole := isCalm_of_not_mem (hdigits h.whole)
  have hfraction : IsCalm ((m.fraction.map ('.' :: ·)).getD []) ∧
      ((m.fraction.map ('.' :: ·)).getD []).head? ≠ some '-' := by
    cases hpart : m.fraction with
    | none => exact ⟨List.isChain_nil, by simp⟩
    | some digits =>
        refine ⟨isCalm_of_not_mem ?_, by simp⟩
        rw [Option.map_some, Option.getD_some, List.mem_cons, not_or]
        exact ⟨by decide, hdigits (h.fraction digits hpart)⟩
  have hexponent : IsCalm ((m.exponent.map fun e => e.1 ++ e.2).getD []) ∧
      ((m.exponent.map fun e => e.1 ++ e.2).getD []).head? ≠ some '-' := by
    cases hpart : m.exponent with
    | none => exact ⟨List.isChain_nil, by simp⟩
    | some e =>
        obtain ⟨hmark, -, hpower⟩ := h.exponent e hpart
        obtain ⟨hcalm, hfirst, hne⟩ := hmarks e.1 hmark
        refine ⟨hcalm.append (isCalm_of_not_mem (hdigits hpower)) (hhead hpower), ?_⟩
        rwa [Option.map_some, Option.getD_some, List.head?_append_of_ne_nil _ hne]
  have hsign : IsCalm (if m.negative then ['-'] else []) := by split <;> decide
  exact ((hsign.append hwhole (hhead h.whole)).append hfraction.1 hfraction.2).append hexponent.1 hexponent.2

/-- A character that neither ends a word nor is tidied. -/
def isFirm (c : Char) : Bool := isBare c && !isBlank c

theorem ColumnDefault.isSimple_of_firm {source : String} (hne : source.toList ≠ [])
    (hfirm : source.toList.all isFirm = true) (hcalm : IsCalm source.toList) :
    (ColumnDefault.expression source).IsSimple := by
  have hchars : ∀ c ∈ source.toList, isBare c = true ∧ isBlank c = false := by
    intro c hc
    have hboth := List.all_eq_true.mp hfirm c hc
    rwa [isFirm, Bool.and_eq_true, Bool.not_eq_true'] at hboth
  exact ⟨⟨hne, fun c hc => (hchars c hc).1, hcalm⟩, fun c hc => (hchars c hc).2⟩

/-- Numerals are words. -/
theorem isSimple_of_spells {text : String} (h : Numeral.Spells Numeral.IsSql text) :
    (ColumnDefault.expression text).IsSimple := by
  obtain ⟨m, hm, htext⟩ := h
  have hmarks : ['-', '+', '.', 'e', 'E'].all isFirm = true := by decide
  have hfirm : m.chars.all isFirm = true := by
    rw [List.all_eq_true]
    intro c hc
    rcases hm.isDigit_or_isMark hc with hdigit | hmark
    · have hname : Naming.isNameChar c = true := by
        rw [Naming.isNameChar, Char.isAlphanum, hdigit, Bool.or_true, Bool.true_or]
      rw [isFirm, isBare_of_isNameChar hname, isBlank_of_isNameChar hname]
      rfl
    · exact List.all_eq_true.mp hmarks c (List.contains_iff_mem.mp hmark)
  have hne : m.chars ≠ [] := by
    intro hnil
    simp only [Numeral.chars, List.append_eq_nil_iff] at hnil
    refine hm.some_digit ?_
    cases hpart : m.fraction with
    | none => simpa using hnil.1.1.2
    | some digits => simp [hpart] at hnil
  exact ColumnDefault.isSimple_of_firm (htext ▸ hne) (htext ▸ hfirm) (htext ▸ isCalm_chars hm)

/-- Numbers are words, whether they are finite or not. -/
theorem isSimple_number (n : Number) : (ColumnDefault.expression n.text).IsSimple := by
  cases hfinite : n.isFinite with
  | true => exact isSimple_of_spells ((Number.spells_text_iff n).2.2.mpr hfinite)
  | false =>
      cases n with
      | int i => cases hfinite
      | real x =>
          cases x with
          | finite => cases hfinite
          | notANumber => exact ColumnDefault.isSimple_of_firm (by decide) (by decide) (by decide)
          | infinity negative =>
              cases negative <;> exact ColumnDefault.isSimple_of_firm (by decide) (by decide) (by decide)

theorem isSimple_of_columnDefault {s : Scalar} {default : ColumnDefault} (h : columnDefault s = .ok default) :
    default.IsSimple := by
  cases s with
  | null =>
      obtain rfl := Except.ok.inj h
      exact ColumnDefault.isSimple_of_firm (by decide) (by decide) (by decide)
  | bool b =>
      obtain rfl := Except.ok.inj h
      cases b <;> exact ColumnDefault.isSimple_of_firm (by decide) (by decide) (by decide)
  | text s => exact Except.ok.inj h ▸ trivial
  | number n =>
      rw [columnDefault] at h
      split at h
      · exact Except.ok.inj h ▸ isSimple_number n
      · cases h

/-! ### Tables -/

/-- A table with plain names in which defaults are texts or words. -/
structure Table.IsSimple (table : Table) : Prop where
  name : Naming.IsPlain table.name
  columns : ∀ column ∈ table.columns, Naming.IsPlain column.name
  defaults : ∀ column ∈ table.columns, ∀ default ∈ column.default, default.IsSimple

/-- Items with a separator behind each of them, and the last ones joined. -/
theorem intercalate_append_cons {α : Type} (separator : List α) (front : List (List α)) (item : List α)
    (rest : List (List α)) :
    List.intercalate separator (front ++ item :: rest) =
      front.flatMap (· ++ separator) ++ List.intercalate separator (item :: rest) := by
  induction front with
  | nil => rfl
  | cons first front ih =>
      have hne : front ++ item :: rest ≠ [] := by simp
      obtain ⟨second, others, heq⟩ := List.exists_cons_of_ne_nil hne
      rw [List.cons_append, heq, List.intercalate_cons_cons, ← heq, ih, List.flatMap_cons, List.append_assoc,
        List.append_assoc, List.append_assoc]

/-- What a statement says in front of the columns. -/
def Table.headTokens (table : Table) : List Token :=
  [.word "CREATE", .word "TABLE", .word "IF", .word "NOT", .word "EXISTS", nameToken table.name]

theorem Table.part_head {table : Table} (h : Naming.IsPlain table.name) :
    Part ("CREATE TABLE IF NOT EXISTS " ++ identifier table.name).toList table.headTokens := by
  have hword : ∀ {word : String}, Naming.IsPlain word ∧ word.toList ≠ [] → Part word.toList [.word word] :=
    fun hword => part_word hword.1 hword.2
  have hcreate : Part "CREATE".toList [.word "CREATE"] := hword (by decide)
  have htable : Part "TABLE".toList [.word "TABLE"] := hword (by decide)
  have hif : Part "IF".toList [.word "IF"] := hword (by decide)
  have hnot : Part "NOT".toList [.word "NOT"] := hword (by decide)
  have hexists : Part "EXISTS".toList [.word "EXISTS"] := hword (by decide)
  have hall := hcreate.append (htable.append (hif.append (hnot.append (hexists.append (part_identifier h)))))
  rw [String.toList_append]
  exact hall

/-- Columns are tidied one by one, up to whatever is behind them. -/
theorem tidyChars_columns {columns : List Column}
    (h : ∀ column ∈ columns, Part column.definition.toList column.tokens) {rest : List Char}
    (hrest : rest.head?.any (fun c => !isBlank c) = true) :
    (columns.flatMap (fun column => column.definition.toList ++ ", \n\t".toList) ++ rest).head?.any
        (fun c => !isBlank c) = true ∧
      tidyChars (columns.flatMap (fun column => column.definition.toList ++ ", \n\t".toList) ++ rest) =
        columns.flatMap (fun column => tidyChars column.definition.toList ++ ",\n  ".toList)
          ++ tidyChars rest := by
  induction columns with
  | nil => exact ⟨hrest, rfl⟩
  | cons column columns ih =>
      obtain ⟨hcolumn, hcolumns⟩ := List.forall_mem_cons.mp h
      obtain ⟨hhead, htidy⟩ := ih hcolumns
      have hseparator : tidyChars ", \n\t".toList = ",\n  ".toList := by decide
      constructor
      · rw [List.flatMap_cons, List.append_assoc, List.append_assoc,
          List.head?_append_of_ne_nil _ hcolumn.ne_nil]
        exact hcolumn.first
      · rw [List.flatMap_cons, List.append_assoc, List.append_assoc, tidyChars_append (Or.inl hcolumn.last),
          tidyChars_append (Or.inr hhead), htidy, hseparator]
        simp

/-- A statement before it is tidied. -/
def Table.layout (table : Table) : String :=
  "CREATE TABLE IF NOT EXISTS " ++ identifier table.name ++ " (\n\t" ++
    String.intercalate ", \n\t" (table.columns.map Column.definition ++ keyClause table ::
      (table.columns.map Column.clauses).flatten) ++ "\n)"

/-- What a statement says behind the columns. -/
def Table.behind (table : Table) : List Char :=
  List.intercalate ", \n\t".toList ((keyClause table).toList ::
    (table.columns.map Column.clauses).flatten.map String.toList) ++ "\n)".toList

theorem Table.layout_toList (table : Table) :
    table.layout.toList =
      ("CREATE TABLE IF NOT EXISTS " ++ identifier table.name).toList ++ (" (\n\t".toList ++
        (table.columns.flatMap (fun column => column.definition.toList ++ ", \n\t".toList) ++ table.behind)) := by
  unfold layout behind
  rw [String.toList_append, String.toList_append, String.toList_append, String.toList_intercalate,
    List.map_append, List.map_cons, intercalate_append_cons, List.map_map, List.flatMap_map]
  simp only [Function.comp_apply, List.append_assoc]

/-- Behind the columns the key is stated. -/
theorem Table.exists_behind_eq (table : Table) :
    ∃ rest, table.behind = "PRIMARY".toList ++ (' ' :: 'K' :: rest) := by
  have hkey : ∃ rest, (keyClause table).toList = "PRIMARY".toList ++ (' ' :: 'K' :: rest) := by
    rw [keyClause, String.toList_append]
    exact ⟨_, rfl⟩
  obtain ⟨rest, hrest⟩ := hkey
  rw [behind, hrest]
  cases (table.columns.map Column.clauses).flatten with
  | nil => exact ⟨rest ++ "\n)".toList, by simp⟩
  | cons clause clauses => exact ⟨_, by simp [List.intercalate_cons_cons]; rfl⟩

theorem Table.head?_behind (table : Table) : table.behind.head? = some 'P' := by
  obtain ⟨rest, hrest⟩ := table.exists_behind_eq
  rw [hrest]
  rfl

theorem Table.exists_tidyChars_behind_eq (table : Table) :
    ∃ rest, tidyChars table.behind = "PRIMARY".toList ++ (' ' :: rest) := by
  obtain ⟨rest, hrest⟩ := table.exists_behind_eq
  have hword : tidyChars "PRIMARY".toList = "PRIMARY".toList := by decide
  have hblank : tidyChars [' '] = [' '] := rfl
  refine ⟨tidyChars ('K' :: rest), ?_⟩
  rw [hrest, tidyChars_append (Or.inl (by decide)), hword, ← List.singleton_append,
    tidyChars_append (Or.inr rfl), hblank, List.singleton_append]

/-- A tidied statement: the head, the columns one by one, and what is behind them. -/
theorem Table.statement_toList {table : Table} (h : table.IsSimple) :
    table.statement.toList =
      tidyChars ("CREATE TABLE IF NOT EXISTS " ++ identifier table.name).toList ++ " (\n  ".toList
        ++ table.columns.flatMap (fun column => tidyChars column.definition.toList ++ ",\n  ".toList)
        ++ tidyChars table.behind := by
  have hhead := table.part_head h.name
  have hcolumns : ∀ column ∈ table.columns, Part column.definition.toList column.tokens :=
    fun column hcolumn => Column.part (h.columns column hcolumn) (h.defaults column hcolumn)
  have hbehind : table.behind.head?.any (fun c => !isBlank c) = true := by
    rw [table.head?_behind]
    rfl
  obtain ⟨hfirst, htidied⟩ := tidyChars_columns hcolumns hbehind
  have hopens : tidyChars " (\n\t".toList = " (\n  ".toList := by decide
  have hstatement : table.statement.toList = tidyChars table.layout.toList := by
    rw [show table.statement = tidy table.layout from rfl]
    refine tidy_toList ?_ ?_
    · intro c hc
      rw [layout_toList, List.head?_append_of_ne_nil _ hhead.ne_nil, String.toList_append] at hc
      obtain rfl : 'C' = c := Option.some.inj hc
      rfl
    · intro c hc
      have hlast : table.layout.toList.getLast? = some ')' := by
        have hclose : "\n)".toList.getLast? = some ')' := by decide
        unfold layout
        rw [String.toList_append, List.getLast?_append, hclose, Option.some_or]
      rw [hlast] at hc
      obtain rfl : ')' = c := Option.some.inj hc
      rfl
  rw [hstatement, layout_toList, tidyChars_append (Or.inl hhead.last), tidyChars_append (Or.inr hfirst),
    htidied, hopens]
  simp

/-- A script that begins with a comment and goes on with the statement that creates a table. -/
def Table.IsScript (table : Table) (script : String) : Prop :=
  ∃ note behind, '\n' ∉ note ∧
    script.toList = '-' :: '-' :: note ++ ['\n'] ++ (table.statement.toList ++ behind)

variable {table : Table} {script : String}

/-- A script begins with the name of the table and its columns, and goes on with its key. -/
theorem Table.IsSimple.prefix_read (h : table.IsSimple) (hscript : table.IsScript script) :
    table.headTokens ++ [.opens] ++ table.columns.flatMap (fun column => column.tokens ++ [.comma]) ++
      [.word "PRIMARY"] <+: Skimming.read script := by
  obtain ⟨note, behind, hnote, hscript⟩ := hscript
  obtain ⟨rest, hbehind⟩ := table.exists_tidyChars_behind_eq
  have hcomment := whole_comment hnote
  have hopens : Whole (' ' :: "(\n  ".toList) [.opens] := fun _ => rfl
  have hcomma : Whole (',' :: "\n  ".toList) [.comma] := fun _ => rfl
  have hkey : Whole ("PRIMARY".toList ++ [' ']) [.word "PRIMARY"] := fun _ => rfl
  have hhead := (table.part_head h.name).reads.whole (by decide) hopens
  have hcolumns : Whole
      (table.columns.flatMap fun column => tidyChars column.definition.toList ++ ",\n  ".toList)
      (table.columns.flatMap fun column => column.tokens ++ [.comma]) :=
    Whole.flatMap fun column hcolumn =>
      (Column.part (h.columns column hcolumn) (h.defaults column hcolumn)).reads.whole (by decide) hcomma
  have hfront := (hcomment.append (hhead.append hcolumns)).append hkey
  rw [List.nil_append] at hfront
  refine hfront.prefix_read ⟨rest ++ behind, ?_⟩
  rw [hscript, Table.statement_toList h, hbehind]
  simp

/-- The items of a script are the columns, and behind them constraints, the first of which is the key. -/
theorem Table.IsSimple.listItems (h : table.IsSimple) (hscript : table.IsScript script) :
    ∃ key others, listItems (Skimming.read script) =
      table.columns.map Column.tokens ++ (.word "PRIMARY" :: key) :: others := by
  obtain ⟨more, hmore⟩ := h.prefix_read hscript
  have hhead : ∀ token ∈ table.headTokens, (token != .opens) = true := by
    rw [headTokens, nameToken]
    split <;> simp
  have hopens : (Token.opens != .opens) = false := by simp
  obtain ⟨key, others, hkey⟩ := itemsFrom_cons 0 (.word "PRIMARY") [] more
  refine ⟨key, others, ?_⟩
  rw [Sql.listItems, ← hmore, List.append_assoc, List.append_assoc, List.append_assoc,
    List.dropWhile_append_of_pos hhead, List.singleton_append, List.dropWhile_cons, hopens,
    if_neg Bool.false_ne_true, List.tail_cons, itemsFrom_flatMap fun column _ => column.isItem, ← hkey]
  rfl

/-- **Defaults are read back.** Whatever the columns of a table hold where nothing is given, a column is
found in the script that creates the table, with its default as tidying leaves it. -/
theorem Table.IsSimple.storedText? (h : table.IsSimple) (hscript : table.IsScript script)
    (hnodup : table.columnNames.Nodup) {column : Column} (hcolumn : column ∈ table.columns) :
    Sql.storedText? column.name script = column.storedText? := by
  obtain ⟨key, others, hitems⟩ := h.listItems hscript
  have hname : ∀ other : Column, (other.tokens.head?.bind Token.name? == some column.name) =
      (other.name == column.name) := by
    intro other
    rw [Column.tokens, List.append_assoc, List.cons_append, List.head?_cons, Option.bind_some,
      name?_nameToken]
    rfl
  have hfind : (table.columns.map Column.tokens).find?
      (fun item => item.head?.bind Token.name? == some column.name) = some column.tokens := by
    rw [List.find?_map]
    have hself : table.columns.find? (fun other => other.name == column.name) = some column := by
      rw [← List.head?_filter, filter_eq_singleton hnodup hcolumn]
      rfl
    have hsame : (fun item : List Token => item.head?.bind Token.name? == some column.name) ∘
        Column.tokens = fun other => other.name == column.name := funext hname
    rw [hsame, hself, Option.map_some]
  rw [Sql.storedText?, hitems, List.find?_append, hfind, Option.some_or, Option.bind_some,
    column.defaultText?_tokens]

example : storedText? "note" "CREATE TABLE t (rank REAL DEFAULT (-1.5), note TEXT DEFAULT 'it''s, so (far)' NOT NULL);" =
    some "it's, so (far)" := by
  decide +kernel

end ApiScaffold.Sql
