import Mathlib
import ApiScaffold.Imports
import ApiScaffold.Proofs.Naming.Identifier
import ApiScaffold.Proofs.Text.Lines

/-! Import blocks, read from their text. A line names a module and, behind it, names that are taken from it.
Merging unites the names under each module and invents none. -/

namespace ApiScaffold.Imports

open Text

/-! ### Reading -/

/-- The module and the names that a line imports, if it is a line that imports names. -/
def read? (line : String) : Option (String × List String) :=
  match partsAt ' ' line with
  | opening :: module :: mark :: names =>
    if opening = "from" ∧ mark = "import" then
      some (module, names.map fun name => String.ofList (name.toList.filter (· != ',')))
    else none
  | _ => none

/-- Only a line that begins with the right letter imports names. -/
theorem read?_of_head? {line : String} (h : line.toList.head? ≠ some 'f') : read? line = none := by
  rw [read?]
  split
  · rename_i opening module mark names hparts
    have hopening : ¬(opening = "from" ∧ mark = "import") := by
      rintro ⟨rfl, -⟩
      obtain ⟨rest, hline⟩ := isPrefix_of_partsAt hparts
      exact h (hline ▸ rfl)
    rw [if_neg hopening]
  · rfl

theorem mem_sortTexts {texts : List String} {text : String} : text ∈ sortTexts texts ↔ text ∈ texts :=
  List.mem_mergeSort

theorem sortTexts_ne_nil {texts : List String} (h : texts ≠ []) : sortTexts texts ≠ [] := by
  obtain ⟨text, htext⟩ := List.exists_mem_of_ne_nil texts h
  exact List.ne_nil_of_mem (mem_sortTexts.mpr htext)

/-- Names with commas between them are found again. -/
theorem partsAt_intercalate {names : List String} (hne : names ≠ [])
    (h : ∀ name ∈ names, ' ' ∉ name.toList ∧ ',' ∉ name.toList) :
    (partsAt ' ' (String.intercalate ", " names)).map
      (fun name => String.ofList (name.toList.filter (· != ','))) = names := by
  have hfilter : ∀ {name : String}, ',' ∉ name.toList → name.toList.filter (· != ',') = name.toList := by
    intro name hname
    refine List.filter_eq_self.mpr fun c hc => bne_iff_ne.mpr ?_
    rintro rfl
    exact hname hc
  induction names with
  | nil => exact absurd rfl hne
  | cons name rest ih =>
      obtain ⟨⟨hblank, hcomma⟩, hrest⟩ := List.forall_mem_cons.mp h
      cases rest with
      | nil =>
          rw [String.intercalate_singleton, partsAt_of_not_mem hblank]
          simp [hfilter hcomma]
      | cons second rest =>
          have hjoined : String.intercalate ", " (name :: second :: rest) =
              (name ++ ",") ++ String.singleton ' ' ++ String.intercalate ", " (second :: rest) := by
            have hmark : ", " = "," ++ String.singleton ' ' := by decide
            rw [String.intercalate_cons_cons]
            simp only [hmark, String.append_assoc]
          rw [hjoined, partsAt_append (not_mem_append hblank (by decide)),
            List.map_cons, ih (List.cons_ne_nil _ _) hrest]
          simp [hfilter hcomma, String.toList_append]

section Reading

variable {module : String}

theorem partsAt_from (hmodule : ' ' ∉ module.toList) (names : String) :
    partsAt ' ' ("from " ++ module ++ " import " ++ names) =
      "from" :: module :: "import" :: partsAt ' ' names := by
  have hopening : "from " = "from" ++ String.singleton ' ' := by decide
  have hmark : " import " = String.singleton ' ' ++ ("import" ++ String.singleton ' ') := by decide
  rw [← partsAt_append (show ' ' ∉ "import".toList by decide), ← partsAt_append hmodule,
    ← partsAt_append (show ' ' ∉ "from".toList by decide), hopening, hmark]
  simp only [String.append_assoc]

/-- A line that imports names is read as what it imports. -/
theorem read?_from (hmodule : ' ' ∉ module.toList) {names : List String} (hne : names ≠ [])
    (hnames : ∀ name ∈ names, ' ' ∉ name.toList ∧ ',' ∉ name.toList) :
    read? ("from " ++ module ++ " import " ++ String.intercalate ", " names) = some (module, names) := by
  rw [read?, partsAt_from hmodule]
  simp only [and_self, if_true, partsAt_intercalate hne hnames]

end Reading

/-- An entry whose line can be read: its module has no blank and no line feed, and its names are plain. -/
structure IsLegible (entry : String × List String) : Prop where
  blank : ' ' ∉ entry.1.toList
  lineFeed : '\n' ∉ entry.1.toList
  nonempty : entry.2 ≠ []
  plain : ∀ name ∈ entry.2, Naming.IsPlain name

instance (entry : String × List String) : Decidable (IsLegible entry) :=
  decidable_of_iff (' ' ∉ entry.1.toList ∧ '\n' ∉ entry.1.toList ∧ entry.2 ≠ [] ∧
      ∀ name ∈ entry.2, Naming.IsPlain name)
    ⟨fun ⟨hblank, hfeed, hne, hplain⟩ => ⟨hblank, hfeed, hne, hplain⟩,
      fun h => ⟨h.blank, h.lineFeed, h.nonempty, h.plain⟩⟩

/-- Modules of plain names can be read, whatever folder they are in. -/
theorem isLegible_append {front module : String} {names : List String} (hblank : ' ' ∉ front.toList)
    (hfeed : '\n' ∉ front.toList) (hmodule : Naming.IsPlain module) (hne : names ≠ [])
    (hplain : ∀ name ∈ names, Naming.IsPlain name) : IsLegible (front ++ module, names) where
  blank := not_mem_append hblank (hmodule.not_mem (by decide))
  lineFeed := not_mem_append hfeed (hmodule.not_mem (by decide))
  nonempty := hne
  plain := hplain

section Line

variable {entry : String × List String} (h : IsLegible entry)

include h

theorem line_eq :
    line entry.1 entry.2 =
      "from " ++ entry.1 ++ " import " ++ String.intercalate ", " (sortTexts entry.2) := by
  have hne : entry.2.isEmpty = false := by simpa using h.nonempty
  rw [line, hne, if_neg Bool.false_ne_true]
  rfl

theorem read?_line : read? (line entry.1 entry.2) = some (entry.1, sortTexts entry.2) := by
  rw [line_eq h]
  refine read?_from h.blank (sortTexts_ne_nil h.nonempty) fun name hname => ?_
  have hplain := h.plain name (mem_sortTexts.mp hname)
  exact ⟨hplain.not_mem (by decide), hplain.not_mem (by decide)⟩

theorem linesOf_line : linesOf (line entry.1 entry.2) = [line entry.1 entry.2] := by
  refine partsAt_of_not_mem ?_
  rw [line_eq h]
  refine not_mem_append (not_mem_append (not_mem_append (by decide) h.lineFeed) (by decide)) ?_
  rw [String.toList_intercalate]
  refine not_mem_intercalate (by decide) fun group hgroup => ?_
  obtain ⟨name, hname, rfl⟩ := List.mem_map.mp hgroup
  exact (h.plain name (mem_sortTexts.mp hname)).not_mem (by decide)

end Line

/-! ### Blocks -/

theorem mem_lines {imports : Imports} {text : String} :
    text ∈ imports.lines ↔ ∃ entry ∈ imports, line entry.1 entry.2 = text := by
  rw [lines, List.mem_map]
  simp only [List.mem_mergeSort]

theorem block_nil : block [] = "" := by
  rw [block, lines, List.mergeSort_nil]
  rfl

theorem lines_ne_nil {imports : Imports} (h : imports ≠ []) : imports.lines ≠ [] := by
  obtain ⟨entry, hentry⟩ := List.exists_mem_of_ne_nil imports h
  exact List.ne_nil_of_mem (mem_lines.mpr ⟨entry, hentry, rfl⟩)

theorem linesOf_block {imports : Imports} (hne : imports ≠ [])
    (h : ∀ entry ∈ imports, linesOf (line entry.1 entry.2) = [line entry.1 entry.2]) :
    linesOf imports.block = imports.lines := by
  have heach : ∀ text ∈ imports.lines, linesOf text = [text] := by
    intro text htext
    obtain ⟨entry, hentry, rfl⟩ := mem_lines.mp htext
    exact h entry hentry
  change linesOf (joinLines imports.lines) = _
  rw [linesOf_joinLines (lines_ne_nil hne), List.flatMap_congr heach, List.flatMap_singleton']

/-- Each line of a block is the line of an entry; only an empty block has an empty line instead. -/
theorem mem_linesOf_block {imports : Imports} (h : ∀ entry ∈ imports, IsLegible entry) {text : String}
    (htext : text ∈ linesOf imports.block) :
    text = "" ∨ ∃ entry ∈ imports, text = line entry.1 entry.2 := by
  by_cases hne : imports = []
  · rw [hne, block_nil] at htext
    exact Or.inl (List.mem_singleton.mp htext)
  · rw [linesOf_block hne fun entry hentry => linesOf_line (h entry hentry), mem_lines] at htext
    obtain ⟨entry, hentry, rfl⟩ := htext
    exact Or.inr ⟨entry, hentry, rfl⟩

/-! ### Merging -/

/-- Every entry has names, and each of them comes from an entry of the same module. -/
def ComesFrom (imports source : Imports) : Prop :=
  ∀ entry ∈ imports, entry.2 ≠ [] ∧
    ∀ name ∈ entry.2, ∃ other ∈ source, other.1 = entry.1 ∧ name ∈ other.2

theorem mem_addNames {names new : List String} {name : String} :
    name ∈ addNames names new ↔ name ∈ names ∨ name ∈ new := by
  rw [addNames]
  induction new generalizing names with
  | nil => simp
  | cons first rest ih =>
      rw [List.foldl_cons, ih]
      split
      · rename_i hfirst
        have hmem : first ∈ names := by simpa using hfirst
        rw [List.mem_cons]
        constructor
        · exact fun h => h.imp_right Or.inr
        · rintro (hname | rfl | hrest)
          · exact Or.inl hname
          · exact Or.inl hmem
          · exact Or.inr hrest
      · rw [List.mem_append, List.mem_singleton, List.mem_cons, or_assoc]

theorem any_module_iff {imports : Imports} {module : String} :
    (imports.any (·.1 == module)) = true ↔ module ∈ imports.map (·.1) := by
  simp only [List.any_eq_true, beq_iff_eq, List.mem_map]

/-- Adding names to a module changes its entry, or makes one behind the others, which stay. -/
theorem mem_add {imports : Imports} {module : String} {names : List String} {made : String × List String} :
    made ∈ imports.add module names ↔
      (made ∈ imports ∧ made.1 ≠ module) ∨
      (∃ entry ∈ imports, entry.1 = module ∧ (module, addNames entry.2 names) = made) ∨
      (module ∉ imports.map (·.1) ∧ made = (module, addNames [] names)) := by
  rw [add]
  split
  · rename_i hany
    rw [List.mem_map]
    constructor
    · rintro ⟨entry, hentry, rfl⟩
      by_cases hsame : entry.1 = module
      · rw [if_pos (beq_iff_eq.mpr hsame)]
        exact Or.inr (Or.inl ⟨entry, hentry, hsame, rfl⟩)
      · rw [if_neg (mt beq_iff_eq.mp hsame)]
        exact Or.inl ⟨hentry, hsame⟩
    · rintro (⟨hmade, hother⟩ | ⟨entry, hentry, hsame, rfl⟩ | ⟨hfresh, -⟩)
      · exact ⟨made, hmade, if_neg (mt beq_iff_eq.mp hother)⟩
      · exact ⟨entry, hentry, if_pos (beq_iff_eq.mpr hsame)⟩
      · exact absurd (any_module_iff.mp hany) hfresh
  · rename_i hany
    have hfresh : module ∉ imports.map (·.1) := mt any_module_iff.mpr hany
    have hother : ∀ entry ∈ imports, entry.1 ≠ module := fun entry hentry heq =>
      hfresh (heq ▸ List.mem_map_of_mem hentry)
    rw [List.mem_append, List.mem_singleton]
    constructor
    · exact fun h => h.imp (fun hold => ⟨hold, hother made hold⟩) fun hnew => Or.inr ⟨hfresh, hnew⟩
    · rintro (⟨hold, -⟩ | ⟨entry, hentry, hsame, -⟩ | ⟨-, hnew⟩)
      · exact Or.inl hold
      · exact absurd hsame (hother entry hentry)
      · exact Or.inr hnew

theorem ComesFrom.add {imports source : Imports} (h : ComesFrom imports source)
    {entry : String × List String} (hentry : entry ∈ source) (hne : entry.2 ≠ []) :
    ComesFrom (imports.add entry.1 entry.2) source := by
  have hnew : ∀ names, (∀ name ∈ names, ∃ other ∈ source, other.1 = entry.1 ∧ name ∈ other.2) →
      addNames names entry.2 ≠ [] ∧ ∀ name ∈ addNames names entry.2,
        ∃ other ∈ source, other.1 = entry.1 ∧ name ∈ other.2 := by
    intro names hnames
    obtain ⟨name, hname⟩ := List.exists_mem_of_ne_nil _ hne
    refine ⟨List.ne_nil_of_mem (mem_addNames.mpr (Or.inr hname)), fun other hother => ?_⟩
    rcases mem_addNames.mp hother with hold | hnew
    · exact hnames other hold
    · exact ⟨entry, hentry, rfl, hnew⟩
  intro made hmade
  rcases mem_add.mp hmade with ⟨hold, -⟩ | ⟨old, hold, hsame, rfl⟩ | ⟨-, rfl⟩
  · exact h made hold
  · refine hnew old.2 fun name hname => ?_
    rw [← hsame]
    exact (h old hold).2 name hname
  · exact hnew [] fun _ hname => absurd hname List.not_mem_nil

/-- A merged block has the names of its parts. -/
theorem comesFrom_mergeAll {source : Imports} (h : ∀ entry ∈ source, entry.2 ≠ []) :
    ComesFrom (mergeAll [source]) source := by
  have hfold : ∀ entries ⊆ source, ∀ imports, ComesFrom imports source →
      ComesFrom (merge imports entries) source := by
    intro entries
    induction entries with
    | nil => exact fun _ _ himports => himports
    | cons entry rest ih =>
        intro hsub imports himports
        rw [List.cons_subset] at hsub
        exact ih hsub.2 _ (himports.add hsub.1 (h entry hsub.1))
  exact hfold source (List.Subset.refl source) [] fun _ hentry => absurd hentry List.not_mem_nil

/-! ### Texts that import nothing -/

/-- No line of a text begins like an import of names. -/
def IsIdle (text : String) : Prop := ∀ line ∈ linesOf text, line.toList.head? ≠ some 'f'

/-- No line behind the first one does. -/
def GoesOnIdle (text : String) : Prop := ∀ line ∈ (linesOf text).tail, line.toList.head? ≠ some 'f'

instance (text : String) : Decidable (IsIdle text) := inferInstanceAs (Decidable (∀ line ∈ _, _))

section Idle

variable {front text : String}

theorem IsIdle.read? (h : IsIdle text) : ∀ line ∈ linesOf text, read? line = none := fun line hline =>
  read?_of_head? (h line hline)

theorem isIdle_of_not_mem {text : String} (h : '\n' ∉ text.toList) (hhead : text.toList.head? ≠ some 'f') :
    IsIdle text := by
  rw [IsIdle, linesOf, partsAt_of_not_mem h, List.forall_mem_singleton]
  exact hhead

theorem goesOnIdle_of_not_mem (h : '\n' ∉ text.toList) : GoesOnIdle text := by
  rw [GoesOnIdle, linesOf, partsAt_of_not_mem h]
  exact List.forall_mem_nil _

theorem GoesOnIdle.append (h : GoesOnIdle text) (hfront : '\n' ∉ front.toList) :
    GoesOnIdle (front ++ text) := by
  obtain ⟨part, hlines⟩ := exists_partsAt_append hfront text
  rw [GoesOnIdle, linesOf, hlines, List.tail_cons]
  exact h

/-- What stands in front of a text on its first line decides how this line begins. -/
theorem GoesOnIdle.isIdle_append (h : GoesOnIdle text) (front : String) (hfront : '\n' ∉ front.toList)
    {c : Char} (hhead : front.toList.head? = some c) (hc : c ≠ 'f') : IsIdle (front ++ text) := by
  obtain ⟨part, hlines⟩ := exists_partsAt_append hfront text
  rw [IsIdle, linesOf, hlines, List.forall_mem_cons, String.toList_append, List.head?_append, hhead,
    Option.some_or]
  exact ⟨fun heq => hc (Option.some.inj heq), h⟩

/-- The name of a resource may bring a line feed at its end, and then what stands behind it is a line. -/
theorem goesOnIdle_identifier_append {name : String} (h : Naming.isIdentifier name = true) (text : String)
    (htext : '\n' ∉ text.toList) (hhead : text.toList.head? ≠ some 'f') : GoesOnIdle (name ++ text) := by
  have hfree : '\n' ∉ Naming.dropLineFeed name.toList := fun hmem =>
    absurd (Naming.isNameChar_of_mem_dropLineFeed h hmem) (by decide)
  rcases Naming.eq_dropLineFeed_or name.toList with heq | heq
  · rw [← heq] at hfree
    exact goesOnIdle_of_not_mem (not_mem_append hfree htext)
  · have hname : name = String.ofList (Naming.dropLineFeed name.toList) ++ String.singleton '\n' := by
      apply String.toList_injective
      rw [String.toList_append, String.toList_ofList, String.toList_singleton]
      exact heq
    rw [GoesOnIdle, linesOf, hname, partsAt_append (by rwa [String.toList_ofList]), List.tail_cons,
      partsAt_of_not_mem htext, List.forall_mem_singleton]
    exact hhead

end Idle

end ApiScaffold.Imports
