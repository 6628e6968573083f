import Mathlib
import ApiScaffold.Proofs.Bundle.Numbers
import ApiScaffold.Proofs.Schema.Module
import ApiScaffold.Proofs.Text.UsedNames

/-! The lines of models, read as code. A line uses the base class, the calls for settings and fields, and the
names in the annotation of its attribute; literals bring none, as long as their numbers are finite. -/

namespace ApiScaffold

open Lexing Text

/-! ### Literals -/

theorem Scalar.exists_reads_literal {s : Scalar} (hfinite : s.isFinite = true) {text : String}
    (h : s.literal = .ok text) : ∃ made, Reads text.toList made ∧ IsValue made := by
  have hword : ∀ word ∈ ["None", "True", "False"], IsWord word := by decide
  cases s with
  | null =>
      obtain rfl := Except.ok.inj h
      exact ⟨_, (hword "None" (by decide)).reads, .word (by decide)⟩
  | bool b =>
      obtain rfl := Except.ok.inj h
      cases b with
      | true => exact ⟨_, (hword "True" (by decide)).reads, .word (by decide)⟩
      | false => exact ⟨_, (hword "False" (by decide)).reads, .word (by decide)⟩
  | number n =>
      rw [literal] at h
      split at h
      · obtain rfl := Except.ok.inj h
        obtain ⟨m, hm, hchars⟩ := (Number.spells_of_isFinite hfinite).1
        obtain ⟨digits, hread⟩ := exists_reads_numeral hm
        rw [hchars]
        refine ⟨_, hread, ?_⟩
        cases m.negative with
        | true => exact .negative digits
        | false => exact .number digits
      · cases h
  | text s =>
      obtain rfl := Except.ok.inj h
      exact ⟨_, reads_textLiteral s, .text s⟩

namespace Schema

/-! ### Settings -/

/-- An argument of a call, which uses no names in the brackets of the call. -/
def IsArgument (text : String) : Prop := ∃ made, Reads text.toList made ∧ Quiet 1 made

theorem isArgument_append {name text : String} (hname : IsWord name) {made : List Lexeme}
    (hread : Reads text.toList made) (hvalue : IsValue made) : IsArgument (name ++ "=" ++ text) := by
  have hmark : Whole "=".toList [.sign '='] := rfl
  refine ⟨_, ?_, hvalue.quiet_argument name⟩
  rw [String.toList_append, String.toList_append, List.append_assoc]
  exact hname.reads.append rfl (hmark.append hread)

theorem isArgument_argumentText {name : String} (hname : IsWord name) {value : Scalar}
    (hfinite : value.isFinite = true) {text : String} (h : argumentText name value = .ok text) :
    IsArgument text := by
  obtain ⟨written, hwritten, rfl⟩ := Outcome.map_eq_ok.mp h
  obtain ⟨made, hread, hvalue⟩ := Scalar.exists_reads_literal hfinite hwritten
  exact isArgument_append hname hread hvalue

theorem isWord_argument (c : Constraint) : IsWord c.argument := by
  have hwords : ∀ word ∈ ["min_length", "max_length", "ge", "le", "pattern"], IsWord word := by decide
  cases c <;> exact hwords _ (by simp [Constraint.argument])

theorem isArgument_settingArguments {default : Option Scalar} {constraints : List Constraint}
    {description : Option String}
    (hfinite : ∀ s ∈ default.toList ++ constraints.map Constraint.value, s.isFinite = true)
    {arguments : List String} (h : settingArguments default constraints description = .ok arguments) :
    ∀ text ∈ arguments, IsArgument text := by
  rw [List.forall_mem_append, List.forall_mem_map] at hfinite
  obtain ⟨first, hfirst, h⟩ := Outcome.bind_eq_ok.mp h
  obtain ⟨middle, hmiddle, h⟩ := Outcome.bind_eq_ok.mp h
  obtain rfl := Except.ok.inj h
  simp only [List.forall_mem_append, List.forall_mem_map]
  refine ⟨⟨fun text htext => ?_, fun text htext => ?_⟩, fun d _ => ?_⟩
  · obtain ⟨value, hvalue, hmade⟩ := Outcome.exists_of_mem_results hfirst htext
    exact isArgument_argumentText (by decide) (hfinite.1 value hvalue) hmade
  · obtain ⟨c, hc, hmade⟩ := Outcome.exists_of_mem_results hmiddle htext
    exact isArgument_argumentText (isWord_argument c) (hfinite.2 c hc) hmade
  · have hname : "description=" = "description" ++ "=" := by decide
    rw [hname]
    exact isArgument_append (by decide) (reads_textLiteral d) (.text d)

theorem isArgument_intercalate {texts : List String} (h : ∀ text ∈ texts, IsArgument text) :
    IsArgument (String.intercalate ", " texts) := by
  choose! made hread hquiet using h
  have hcomma : Whole [',', ' '] [.sign ','] := rfl
  have hcommaQuiet : Quiet 1 [.sign ','] := fun _ _ _ => rfl
  refine ⟨List.intercalate [.sign ','] (texts.map made), ?_, quiet_intercalate hcommaQuiet ?_⟩
  · rw [String.toList_intercalate]
    refine reads_intercalate hcomma (by decide) ?_
    simp only [List.forall₂_map_left_iff, List.forall₂_map_right_iff, List.forall₂_same]
    exact hread
  · exact List.forall_mem_map.mpr hquiet

/-- What stands behind an annotation uses no other name than that of the call it may be. -/
theorem Setting.exists_reads {setting : Setting}
    (hfinite : ∀ s ∈ setting.scalars, s.isFinite = true) {text : String} (h : setting.text = .ok text) :
    ∃ made, Reads text.toList made ∧ StartsApart text.toList ∧ ∀ name ∈ usedFrom 0 made, name = "Field" := by
  cases setting with
  | unset =>
      obtain rfl := Except.ok.inj h
      exact ⟨[], Reads.nil, rfl, fun _ hname => absurd hname List.not_mem_nil⟩
  | plain default =>
      obtain ⟨written, hwritten, rfl⟩ := Outcome.map_eq_ok.mp h
      rw [scalars, List.forall_mem_singleton] at hfinite
      obtain ⟨made, hread, hvalue⟩ := Scalar.exists_reads_literal hfinite hwritten
      have hmark : Whole " = ".toList [.sign '='] := rfl
      rw [String.toList_append]
      refine ⟨_, hmark.append hread, rfl, fun name hname => ?_⟩
      have hquiet : usedFrom 0 (made ++ []) = [] := hvalue.quiet 0 le_rfl []
      rw [List.append_nil] at hquiet
      change name ∈ usedFrom 0 made at hname
      rw [hquiet] at hname
      cases hname
  | field default constraints description =>
      obtain ⟨arguments, harguments, rfl⟩ := Outcome.map_eq_ok.mp h
      obtain ⟨made, hread, hquiet⟩ := isArgument_intercalate (isArgument_settingArguments hfinite harguments)
      have hopening : Whole " = Field(".toList [.sign '=', .name "Field", .sign '('] := rfl
      have hclosing : Whole ")".toList [.sign ')'] := rfl
      have hapart : StartsApart (" = Field(" ++ String.intercalate ", " arguments ++ ")").toList := by
        rw [String.toList_append, String.toList_append]
        rfl
      refine ⟨_, hread.enclosed hopening hclosing rfl, hapart, fun name hname => ?_⟩
      have hinside : usedFrom 1 (made ++ [.sign ')']) = [] := hquiet 1 le_rfl _
      change name ∈ usedFrom 0 (.name "Field" :: .sign '(' :: (made ++ [.sign ')'])) at hname
      rcases mem_usedFrom_name hname with heq | hmem
      · exact heq
      · change name ∈ usedFrom 1 (made ++ [.sign ')']) at hmem
        rw [hinside] at hmem
        cases hmem

/-! ### Annotations -/

namespace Annotation

def lexemes : Annotation → List Lexeme
  | named name => [.name name]
  | dictionary key value => [.name "Dict", .sign '[', .name key, .sign ',', .name value, .sign ']']
  | choice texts => .name "Literal" :: .sign '[' :: (itemLexemes texts ++ [.sign ']'])
  | optional inner => .name "Optional" :: .sign '[' :: (inner.lexemes ++ [.sign ']'])

theorem reads {a : Annotation} (h : ∀ name ∈ a.names, IsWord name) : Reads a.text.toList a.lexemes := by
  have hclosing : Whole "]".toList [.sign ']'] := rfl
  induction a with
  | named name => exact (h name List.mem_cons_self).reads
  | dictionary key value =>
      have hopening : Whole "Dict[".toList [.name "Dict", .sign '['] := rfl
      have hcomma : Whole ", ".toList [.sign ','] := rfl
      have hkey : IsWord key := h key (by simp [names])
      have hvalue : IsWord value := h value (by simp [names])
      have hchars : (dictionary key value).text.toList =
          "Dict[".toList ++ (key.toList ++ (", ".toList ++ (value.toList ++ "]".toList))) := by
        simp only [text, String.toList_append, List.append_assoc]
        rfl
      rw [hchars]
      exact hopening.append (hkey.reads.append rfl (hcomma.append (hvalue.reads.append rfl hclosing.reads)))
  | choice texts =>
      have hopening : Whole "Literal[".toList [.name "Literal", .sign '['] := rfl
      exact (reads_items texts).enclosed hopening hclosing rfl
  | optional inner ih =>
      have hopening : Whole "Optional[".toList [.name "Optional", .sign '['] := rfl
      have hinner := ih fun name hname => h name (List.mem_cons_of_mem _ hname)
      exact hinner.enclosed hopening hclosing rfl

theorem quiet_itemLexemes (items : List String) : Quiet 0 (itemLexemes items) := by
  have hcomma : Quiet 0 [.sign ','] := fun _ _ _ => rfl
  refine quiet_intercalate hcomma (List.forall_mem_map.mpr fun s _ => ?_)
  exact fun _ _ _ => rfl

/-- An annotation uses its names, and brackets that it opens it closes. -/
theorem mem_names_or {a : Annotation} {depth : Nat} {rest : List Lexeme} {name : String}
    (h : name ∈ usedFrom depth (a.lexemes ++ rest)) : name ∈ a.names ∨ name ∈ usedFrom depth rest := by
  induction a generalizing depth rest with
  | named s => exact (mem_usedFrom_name h).imp_left List.mem_singleton.mpr
  | dictionary key value =>
      rcases mem_usedFrom_name h with rfl | h
      · exact Or.inl List.mem_cons_self
      · rcases mem_usedFrom_name (show name ∈ usedFrom (depth + 1) (.name key :: _) from h) with rfl | h
        · exact Or.inl (by simp [names])
        · rcases mem_usedFrom_name (show name ∈ usedFrom (depth + 1) (.name value :: _) from h) with rfl | h
          · exact Or.inl (by simp [names])
          · exact Or.inr h
  | choice texts =>
      rcases mem_usedFrom_name h with rfl | h
      · exact Or.inl List.mem_cons_self
      · change name ∈ usedFrom (depth + 1) ((itemLexemes texts ++ [.sign ']']) ++ rest) at h
        rw [List.append_assoc, quiet_itemLexemes texts (depth + 1) (Nat.zero_le _)] at h
        exact Or.inr h
  | optional inner ih =>
      rcases mem_usedFrom_name h with rfl | h
      · exact Or.inl List.mem_cons_self
      · change name ∈ usedFrom (depth + 1) ((inner.lexemes ++ [.sign ']']) ++ rest) at h
        rw [List.append_assoc] at h
        exact (ih h).imp_left (List.mem_cons_of_mem _)

end Annotation

/-! ### Attributes -/

/-- An attribute that can be read: it is formed like a name, its annotation has words for names, and its numbers
are finite. -/
structure Attribute.IsReadable (a : Attribute) : Prop where
  name : Naming.isNameLike a.name = true
  typing : ∀ name ∈ a.typing.names, IsWord name
  scalars : ∀ s ∈ a.setting.scalars, s.isFinite = true

theorem Attribute.IsReadable.exists_usedNames {a : Attribute} (h : a.IsReadable) {line : String}
    (hline : a.line = .ok line) :
    ∃ names, usedNames? line = some names ∧ ∀ name ∈ names, name ∈ a.typing.names ∨ name = "Field" := by
  obtain ⟨setting, hsetting, rfl⟩ := Outcome.map_eq_ok.mp hline
  obtain ⟨made, hread, hapart, hused⟩ := Setting.exists_reads h.scalars hsetting
  have htyping : Reads a.typing.text.toList a.typing.lexemes := Annotation.reads h.typing
  have hindent : Whole indent.toList [] := rfl
  have hcolon : Whole ": ".toList [.sign ':'] := rfl
  have hchars : (s!"{indent}{a.name}: {a.typing.text}{setting}").toList =
      indent.toList ++ (a.name.toList ++ (": ".toList ++ (a.typing.text.toList ++ setting.toList))) := by
    simp only [String.toList_append, List.append_assoc]
    rfl
  -- The name may end in a line feed, which is a blank of the line.
  have hlexemes : lex? s!"{indent}{a.name}: {a.typing.text}{setting}" =
      some (.name (String.ofList (Naming.dropLineFeed a.name.toList)) :: .sign ':' ::
        (a.typing.lexemes ++ made)) := by
    apply lex?_eq_some
    rw [hchars]
    exact hindent.append ((reads_nameLike h.name).append rfl
      (hcolon.append (htyping.append hapart hread)))
  refine ⟨_, by rw [usedNames?, hlexemes]; rfl, fun name hname => ?_⟩
  have hor := Annotation.mem_names_or hname
  exact hor.imp_right (hused name)

/-! ### Models -/

/-- Letters, digits and underscores are quoted as they are. -/
theorem quotedCode_of_isNameChar {c : Char} (h : Naming.isNameChar c = true) : quotedCode 0x27 c.toNat = [c] := by
  obtain ⟨hlow, hhigh⟩ := Naming.toNat_of_isNameChar h
  have hslash : (c.toNat == 0x5C) = false := by
    rw [beq_eq_false_iff_ne]
    intro hcode
    have heq : c = '\\' := Char.toNat_inj.mp hcode
    rw [heq] at h
    exact absurd h (by decide)
  have hne : ∀ code, code < 0x30 → (c.toNat == code) = false := fun code hcode =>
    beq_eq_false_iff_ne.mpr (by omega)
  have hprintable : isPrintableCode c.toNat = true := by
    rw [isPrintableCode, if_pos (by omega)]
    exact decide_eq_true (by omega)
  rw [quotedCode, hslash, hne 0x27 (by decide), hne 0x0A (by decide), hne 0x0D (by decide),
    hne 0x09 (by decide), hprintable, Char.ofNat_toNat]
  rfl

theorem passes_quotedCode {c : Char} (h : Naming.isNameChar c = true ∨ c = '\n') :
    Passes (quotedCode 0x27 c.toNat) := by
  rcases h with hname | rfl
  · rw [quotedCode_of_isNameChar hname]
    exact passes_of_isOrdinary (List.forall_mem_singleton.mpr (Naming.isOrdinary_of_isNameChar hname))
  · exact fun content => ⟨'\n' :: content, rfl⟩

/-- The name of a resource is quoted in the doc lines of its models; at most a line feed is escaped. -/
theorem passes_quoted {name : String} (h : Naming.isIdentifier name = true) : Passes (quoted name).toList := by
  have hchars : ∀ chars : List Char, (∀ c ∈ chars, Naming.isNameChar c = true ∨ c = '\n') →
      Passes (chars.flatMap fun c => quotedCode 0x27 c.toNat) := by
    intro chars
    induction chars with
    | nil => exact fun _ content => ⟨content, rfl⟩
    | cons c chars ih =>
        intro hall
        obtain ⟨hc, hrest⟩ := List.forall_mem_cons.mp hall
        rw [List.flatMap_cons]
        exact (passes_quotedCode hc).append (ih hrest)
  have hsingle : (name.toList.map Char.toNat).contains 0x27 = false := by
    rw [List.contains_eq_mem, decide_eq_false_iff_not]
    intro hmem
    obtain ⟨c, hc, hcode⟩ := List.mem_map.mp hmem
    have heq : c = '\x27' := Char.toNat_inj.mp hcode
    exact Naming.not_mem_of_isIdentifier h (by decide) (by decide) (heq ▸ hc)
  have hquoted : (quoted name).toList =
      ['\x27'] ++ (name.toList.flatMap (fun c => quotedCode 0x27 c.toNat) ++ ['\x27']) := by
    rw [quoted, quotedCodes, hsingle, Bool.false_and, if_neg Bool.false_ne_true, String.toList_ofList,
      List.flatMap_map]
    rfl
  have hquote : Passes ['\x27'] := fun content => ⟨'\x27' :: content, rfl⟩
  rw [hquoted]
  exact hquote.append ((hchars _ fun c hc => Naming.isNameChar_of_mem h hc).append hquote)

/-- The settings that models have. -/
def settingTexts : List String := ["from_attributes=True, populate_by_name=True", "extra=\"forbid\""]

theorem usedNames?_settings : ∀ settings ∈ settingTexts,
    usedNames? s!"{indent}model_config = ConfigDict({settings})" = some ["ConfigDict"] := by
  decide +kernel

theorem usedNames?_class {name : String} (h : Naming.IsPlain name) :
    usedNames? s!"class {name}(BaseModel):" = some ["BaseModel"] := by
  obtain ⟨made, hread, hfree⟩ := exists_reads_plain (Naming.isPlain_iff.mp h)
  have hopening : Whole "class ".toList [.name "class"] := rfl
  have hclosing : Whole "(BaseModel):".toList [.sign '(', .name "BaseModel", .sign ')', .sign ':'] := rfl
  have hlexemes : lex? s!"class {name}(BaseModel):" =
      some (.name "class" :: (made ++ [.sign '(', .name "BaseModel", .sign ')', .sign ':'])) :=
    lex?_eq_some (hread.enclosed hopening hclosing rfl)
  rw [usedNames?, hlexemes, Option.map_some, evaluated_class hfree]
  rfl

theorem usedNames?_doc {doc : String} (h : Passes doc.toList) :
    usedNames? (indent ++ "\"\"\"" ++ doc ++ "\"\"\"") = some [] := by
  obtain ⟨s, hdoc⟩ := exists_whole_long h
  have hindent : Whole indent.toList [] := rfl
  have hlexemes : lex? (indent ++ "\"\"\"" ++ doc ++ "\"\"\"") = some [.text s] := by
    apply lex?_eq_some
    rw [String.toList_append, String.toList_append, String.toList_append, List.append_assoc, List.append_assoc]
    exact hindent.append hdoc.reads
  rw [usedNames?, hlexemes]
  rfl

/-- A model whose lines can be read. -/
structure Model.IsReadable (model : Model) : Prop where
  name : Naming.IsPlain model.name
  doc : Passes model.doc.toList
  settings : ∀ settings ∈ model.settings, settings ∈ settingTexts
  attributes : ∀ a ∈ model.attributes, a.IsReadable

/-- The names that the lines of a model may use. -/
def Model.names (model : Model) : List String :=
  ["BaseModel", "ConfigDict", "Field"] ++ model.attributes.flatMap fun a => a.typing.names

theorem Model.IsReadable.exists_usedNames {model : Model} (h : model.IsReadable) {lines : List String}
    (hlines : model.lines = .ok lines) :
    ∀ line ∈ lines, ∃ names, usedNames? line = some names ∧ ∀ name ∈ names, name ∈ model.names := by
  obtain ⟨attributes, hattributes, hlines⟩ := Outcome.bind_eq_ok.mp hlines
  obtain rfl := Except.ok.inj hlines
  have hnothing : ∀ {line}, usedNames? line = some [] →
      ∃ names, usedNames? line = some names ∧ ∀ name ∈ names, name ∈ model.names :=
    fun hused => ⟨[], hused, List.forall_mem_nil _⟩
  simp only [List.forall_mem_append, List.forall_mem_cons]
  refine ⟨⟨⟨?_, ?_, ?_, List.forall_mem_nil _⟩, ?_⟩, ?_⟩
  · refine ⟨_, usedNames?_class h.name, ?_⟩
    simp [names]
  · exact hnothing (usedNames?_doc h.doc)
  · exact hnothing rfl
  · cases hsettings : model.settings with
    | none => exact List.forall_mem_nil _
    | some settings =>
        simp only [List.forall_mem_cons]
        refine ⟨⟨_, usedNames?_settings settings (h.settings settings hsettings), ?_⟩, hnothing rfl,
          List.forall_mem_nil _⟩
        simp [names]
  · split
    · rw [List.forall_mem_singleton]
      exact hnothing rfl
    · intro line hline
      obtain ⟨a, ha, hmade⟩ := Outcome.exists_of_mem_results hattributes hline
      obtain ⟨names, hused, hnames⟩ := (h.attributes a ha).exists_usedNames hmade
      refine ⟨names, hused, fun name hname => ?_⟩
      rw [Model.names, List.mem_append, List.mem_flatMap]
      rcases hnames name hname with htyping | rfl
      · exact Or.inr ⟨a, ha, htyping⟩
      · exact Or.inl (by decide)

end Schema

end ApiScaffold
