import Mathlib
import ApiScaffold.Proofs.Naming.Identifier
import ApiScaffold.Proofs.Sql.Statements
import ApiScaffold.Proofs.Sql.Tidying

/-! Scripts that create indexes. Tidying leaves a statement on one line as it is, if it neither begins nor
ends with a blank, and plain names make such statements. So a script of such statements is read back as
the indexes that it was made for. -/

namespace ApiScaffold

namespace Sql

open Reading

/-! ### Tidying -/

/-- A character that tidying leaves alone. -/
def isTidy (c : Char) : Bool := !Text.isLineBoundary c && c != '\t'

theorem tidy_eq_self {s : String} (h : s.toList.all isTidy = true)
    (hhead : ∀ c ∈ s.toList.head?, Text.isBlank c = false)
    (hlast : ∀ c ∈ s.toList.getLast?, Text.isBlank c = false) : tidy s = s := by
  simp only [List.all_eq_true, isTidy, Bool.and_eq_true, Bool.not_eq_true', bne_iff_ne] at h
  have hfeed : '\n' ∉ s.toList := fun hmem => absurd (h _ hmem).1 (by decide)
  have hsettled : IsSettled s.toList :=
    { no_tab := fun hmem => (h _ hmem).2 rfl
      boundaries := fun c hc hboundary => absurd hboundary (Bool.not_eq_true _ ▸ (h c hc).1)
      ends := isChain_of_not_mem hfeed }
  rw [← String.toList_inj, tidy_toList hhead hlast]
  exact tidyChars_eq_self_iff.mpr hsettled

theorem isTidy_of_isNameChar {c : Char} (h : Naming.isNameChar c = true) : isTidy c = true := by
  have hcode := Naming.toNat_of_isNameChar h
  have htab : c ≠ '\t' := by
    rintro rfl
    exact absurd hcode.1 (by decide)
  simp only [isTidy, Text.isLineBoundary, Bool.and_eq_true, Bool.not_eq_true', Bool.or_eq_false_iff,
    Bool.and_eq_false_imp, decide_eq_true_eq, decide_eq_false_iff_not, beq_eq_false_iff_ne, bne_iff_ne]
  exact ⟨⟨⟨⟨⟨by omega, by omega⟩, by omega⟩, by omega⟩, by omega⟩, htab⟩

theorem all_isTidy_identifier {name : String} (h : Naming.IsPlain name) :
    (identifier name).toList.all isTidy = true := by
  have hname : ∀ c ∈ name.toList, isTidy c = true := fun c hc =>
    isTidy_of_isNameChar (Naming.isPlain_iff.mp h c hc)
  have hmark : isTidy '"' = true := by decide
  rw [identifier, List.all_eq_true]
  split
  · intro c hc
    rcases mem_enclosed hc with rfl | hmem
    · exact hmark
    · exact hname c hmem
  · exact hname

theorem all_isTidy_identifierList {names : List String} (h : ∀ name ∈ names, Naming.IsPlain name) :
    (identifierList names).toList.all isTidy = true := by
  have hopens : isTidy '(' = true := by decide
  have hcloses : isTidy ')' = true := by decide
  have hcomma : ", ".toList.all isTidy = true := by decide
  rw [List.all_eq_true]
  intro c hc
  simp only [identifierList, String.toList_append, String.toList_intercalate, List.mem_append,
    List.map_map] at hc
  rcases hc with (hfirst | hnames) | hlast
  · exact List.mem_singleton.mp hfirst ▸ hopens
  · rcases mem_of_mem_intercalate hnames with hseparator | ⟨group, hgroup, hmem⟩
    · exact List.all_eq_true.mp hcomma c hseparator
    · obtain ⟨name, hname, rfl⟩ := List.mem_map.mp hgroup
      exact List.all_eq_true.mp (all_isTidy_identifier (h name hname)) c hmem
  · exact List.mem_singleton.mp hlast ▸ hcloses

/-! ### Statements -/

/-- The text that creates an index. -/
def CreatedIndex.text (created : CreatedIndex) : String :=
  "CREATE " ++ (if created.index.unique then "UNIQUE " else "") ++ "INDEX IF NOT EXISTS " ++
    identifier created.index.name ++ " ON " ++ identifier created.table ++ " " ++
      identifierList created.index.columns

/-- An index whose names are plain. -/
structure CreatedIndex.Plain (created : CreatedIndex) : Prop where
  name : Naming.IsPlain created.index.name
  table : Naming.IsPlain created.table
  columns : ∀ name ∈ created.index.columns, Naming.IsPlain name

theorem tidy_text {created : CreatedIndex} (h : created.Plain) : tidy created.text = created.text := by
  have hlist := all_isTidy_identifierList h.columns
  apply tidy_eq_self
  · have hhead : ("CREATE " ++ if created.index.unique then "UNIQUE " else "").toList.all isTidy =
        true := by
      split <;> decide
    have hmiddle : "INDEX IF NOT EXISTS ".toList.all isTidy = true := by decide
    have hon : " ON ".toList.all isTidy = true := by decide
    have hspace : " ".toList.all isTidy = true := by decide
    rw [CreatedIndex.text]
    simp only [String.toList_append, List.all_append] at hhead ⊢
    simp only [hhead, hmiddle, hon, hspace, hlist, all_isTidy_identifier h.name,
      all_isTidy_identifier h.table, Bool.and_self]
  · have hfirst : created.text.toList.head? = some 'C' := by
      simp only [CreatedIndex.text, String.toList_append, List.append_assoc]
      rfl
    rw [hfirst]
    rintro c ⟨⟩
    decide
  · have hlast : created.text.toList.getLast? = some ')' := by
      simp only [CreatedIndex.text, identifierList, String.toList_append, ← List.append_assoc]
      exact List.getLast?_concat
    rw [hlast]
    rintro c ⟨⟩
    decide

theorem reads_text {created : CreatedIndex} (h : created.Plain) :
    Reads created.text.toList (indexTokens created) := by
  obtain ⟨table, name, columns, unique⟩ := created
  have hfeed : Naming.isNameChar '\n' = false := by decide
  have hhead : Whole ("CREATE " ++ (if unique then "UNIQUE " else "") ++ "INDEX IF NOT EXISTS ").toList
      ((indexHead unique).map Token.word) := by
    cases unique <;> decide
  have hon : Whole " ON ".toList [.word "ON"] := by decide
  have hspace : Whole " ".toList [] := by decide
  have hname := reads_identifier (h.name.not_mem hfeed)
  have htable := reads_identifier (h.table.not_mem hfeed)
  have hlist := reads_identifierList fun column hcolumn => (h.columns column hcolumn).not_mem hfeed
  have hcolumns := htable.append (.append (by decide) (by decide) _) (hspace.append hlist)
  have hbody := hname.append (.append (by decide) (by decide) _) (hon.append hcolumns)
  have htext := hhead.append hbody
  rw [CreatedIndex.text, indexTokens]
  simpa [String.toList_append] using htext

theorem createIndex_eq_ok {table : Table} {index : Index} {statement : String}
    (h : createIndex table index = .ok statement) :
    statement = tidy (CreatedIndex.text ⟨table.name, index⟩) := by
  unfold createIndex at h
  split at h
  · cases h
  · split at h
    · cases h
    · exact (Except.ok.inj h).symm

/-! ### Scripts -/

theorem mapM_readIndex (indexes : List CreatedIndex) :
    (indexes.map indexTokens).mapM readIndex = some indexes := by
  apply mapM_eq_some_of_forall₂
  rw [List.forall₂_map_left_iff, List.forall₂_same]
  exact fun created _ => readIndex_indexTokens created

/-- Statements with their ends, one to a line. -/
theorem reads_statements {indexes : List CreatedIndex} (h : ∀ created ∈ indexes, created.Plain) :
    Reads (indexes.flatMap fun created => (created.text ++ ";").toList ++ ['\n'])
      (indexes.flatMap fun created => indexTokens created ++ [.ends]) := by
  have hends : Whole [';', '\n'] [.ends] := by decide
  induction indexes with
  | nil => exact .nil
  | cons created indexes ih =>
      obtain ⟨hcreated, hindexes⟩ := List.forall_mem_cons.mp h
      have hrest := (reads_text hcreated).append (.append (by decide) (by decide) _)
        (hends.append (ih hindexes))
      simpa [String.toList_append] using hrest

/-- A script of a comment and statements is read as its statements. -/
theorem statements_script {comment : String} {indexes : List CreatedIndex}
    (hcomment : Whole (comment.toList ++ ['\n']) []) (h : ∀ created ∈ indexes, created.Plain) :
    statements (Text.joinLines (comment :: indexes.map fun created => created.text ++ ";") ++ "\n") =
      some (indexes.map indexTokens) := by
  have hlines := @intercalate_append_separator Char ['\n'] _
    (List.cons_ne_nil comment.toList (indexes.map fun created => (created.text ++ ";").toList))
  rw [List.flatMap_cons, List.flatMap_map] at hlines
  have htext : (Text.joinLines (comment :: indexes.map fun created => created.text ++ ";") ++
      "\n").toList = comment.toList ++ ['\n'] ++
        indexes.flatMap fun created => (created.text ++ ";").toList ++ ['\n'] := by
    rw [← hlines, Text.joinLines, String.toList_append, String.toList_intercalate, List.map_cons,
      List.map_map]
    rfl
  have hreads := hcomment.append (reads_statements h)
  rw [← htext, List.nil_append] at hreads
  have hends : ∀ group ∈ indexes.map indexTokens, Token.ends ∉ group := by
    intro group hgroup
    obtain ⟨created, -, rfl⟩ := List.mem_map.mp hgroup
    exact ends_not_mem_indexTokens created
  have hsplit := splitStatements_flatMap hends
  rw [List.flatMap_map] at hsplit
  rw [statements, read_eq_some hreads, Option.bind_some, hsplit]

/-- **Scripts of indexes are read back** as the indexes that they create. -/
theorem readIndexes_script {comment : String} {indexes : List CreatedIndex}
    (hcomment : Whole (comment.toList ++ ['\n']) []) (h : ∀ created ∈ indexes, created.Plain) :
    readIndexes (Text.joinLines (comment :: indexes.map fun created => created.text ++ ";") ++
      "\n") = some indexes := by
  rw [readIndexes, statements_script hcomment h, Option.bind_some, mapM_readIndex]

end Sql

end ApiScaffold
