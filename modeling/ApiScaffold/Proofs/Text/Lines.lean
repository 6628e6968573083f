import Mathlib
import ApiScaffold.Literal
import ApiScaffold.Proofs.Lists
import ApiScaffold.Text.Lines

/-! Generated text, read back. Joined lines are found again one by one, and a literal of a text stands on
one line whatever the text is; a text of ordinary characters stands in it as it is. -/

namespace ApiScaffold

namespace Text

variable {mark : Char} {text first rest : String}

theorem not_mem_append (hfirst : mark ∉ first.toList) (hrest : mark ∉ rest.toList) :
    mark ∉ (first ++ rest).toList := by
  rw [String.toList_append, List.mem_append, not_or]
  exact ⟨hfirst, hrest⟩

/-- The parts of a text between the occurrences of a character. -/
def partsAt (mark : Char) (text : String) : List String :=
  (text.toList.splitOn mark).map String.ofList

/-- The lines of a text. -/
def linesOf (text : String) : List String := partsAt '\n' text

theorem partsAt_of_not_mem (h : mark ∉ text.toList) : partsAt mark text = [text] := by
  rw [partsAt, List.splitOn_eq_singleton h, List.map_singleton, String.ofList_toList]

/-- What stands before the first mark is one part. -/
theorem partsAt_append (h : mark ∉ first.toList) :
    partsAt mark (first ++ String.singleton mark ++ rest) = first :: partsAt mark rest := by
  rw [partsAt, String.toList_append, String.toList_append, String.toList_singleton, List.append_assoc,
    List.singleton_append, List.splitOn_append_cons_self_of_not_mem h, List.map_cons,
    String.ofList_toList, partsAt]

/-- A text begins with its first part. -/
theorem isPrefix_of_partsAt {part : String} {others : List String}
    (h : partsAt mark text = part :: others) : part.toList <+: text.toList := by
  obtain ⟨chars, rest, hsplit, rfl, -⟩ := List.map_eq_cons_iff.mp h
  have hjoined := @List.intercalate_splitOn _ text.toList _ _ mark
  rw [hsplit] at hjoined
  rw [String.toList_ofList, ← hjoined]
  cases rest with
  | nil =>
      rw [List.intercalate_singleton]
  | cons second rest =>
      rw [List.intercalate_cons_cons, List.append_assoc]
      exact List.prefix_append _ _

/-- Text in front that has no mark belongs to the first part. -/
theorem exists_partsAt_append (h : mark ∉ first.toList) (text : String) :
    ∃ part, partsAt mark (first ++ text) = (first ++ part) :: (partsAt mark text).tail := by
  obtain ⟨chars, others, hsplit⟩ := List.exists_cons_of_ne_nil (List.splitOn_ne_nil mark text.toList)
  have hfront : ∀ front : List Char, mark ∉ front →
      (front ++ text.toList).splitOn mark = (front ++ chars) :: others := by
    intro front hfront
    induction front with
    | nil => exact hsplit
    | cons c front ih =>
        rw [List.mem_cons, not_or] at hfront
        rw [List.cons_append, List.splitOn_cons_eq_if_modifyHead, beq_false_of_ne (Ne.symm hfront.1),
          if_neg Bool.false_ne_true, ih hfront.2, List.modifyHead_cons, List.cons_append]
  refine ⟨String.ofList chars, ?_⟩
  rw [partsAt, String.toList_append, hfront _ h, partsAt, hsplit, List.map_cons, List.map_cons,
    List.tail_cons, String.ofList_append, String.ofList_toList]

/-- The lines of joined texts are the lines of each of them. -/
theorem linesOf_joinLines {lines : List String} (hne : lines ≠ []) :
    linesOf (joinLines lines) = lines.flatMap linesOf := by
  have hfeed : "\n".toList = ['\n'] := rfl
  rw [linesOf, joinLines, partsAt, String.toList_intercalate, hfeed]
  induction lines with
  | nil => exact absurd rfl hne
  | cons line others ih =>
      cases others with
      | nil =>
          rw [List.map_singleton, List.intercalate_singleton, List.flatMap_singleton]
          rfl
      | cons second others =>
          have hjoined : List.intercalate ['\n'] (List.map String.toList (line :: second :: others)) =
              line.toList ++ '\n' :: List.intercalate ['\n'] (List.map String.toList (second :: others)) := by
            rw [List.map_cons, List.map_cons, List.intercalate_cons_cons, List.append_assoc]
            rfl
          rw [hjoined, List.splitOn_append_cons_self, List.map_append, ih (List.cons_ne_nil _ _),
            List.flatMap_cons]
          rfl

/-- A single line that is joined to others is one of the lines. -/
theorem mem_flatMap_linesOf {lines : List String} {line : String} (h : line ∈ lines)
    (hfeed : '\n' ∉ line.toList) : line ∈ lines.flatMap linesOf := by
  refine List.mem_flatMap.mpr ⟨line, h, ?_⟩
  rw [linesOf, partsAt_of_not_mem hfeed]
  exact List.mem_singleton_self line

/-- What stands behind the last line of a given content. -/
def behindLast (line : String) (lines : List String) : List String :=
  (lines.reverse.takeWhile fun other => other != line).reverse

theorem behindLast_append {line : String} {front behind : List String} (h : line ∉ behind) :
    behindLast line (front ++ line :: behind) = behind := by
  have hothers : ∀ other ∈ behind.reverse, (other != line) = true := by
    intro other hother
    rw [bne_iff_ne]
    rintro rfl
    exact h (List.mem_reverse.mp hother)
  rw [behindLast, List.reverse_append, List.reverse_cons, List.append_assoc,
    List.takeWhile_append_of_pos hothers, List.singleton_append]
  simp

/-! ### Counted lines -/

/-- The lines of a text; a line feed at its end closes the last of them. -/
def closedLines (text : String) : List String :=
  if (linesOf text).getLast? = some "" then (linesOf text).dropLast else linesOf text

theorem length_linesOf (text : String) :
    (linesOf text).length = text.toList.count '\n' + 1 := by
  rw [linesOf, partsAt, List.length_map]
  induction text.toList with
  | nil => rfl
  | cons c rest ih =>
      rw [List.splitOn_cons_eq_if_modifyHead, List.count_cons]
      split
      · rw [List.length_cons, ih]
      · rw [List.length_modifyHead, ih, Nat.add_zero]

/-- The last of the parts is empty where a mark, or nothing, ends the whole. -/
theorem getLast?_splitOn_eq_nil {mark : Char} {chars : List Char} :
    (chars.splitOn mark).getLast? = some [] ↔ chars = [] ∨ chars.getLast? = some mark := by
  constructor
  · intro h
    obtain ⟨front, hsplit⟩ := List.getLast?_eq_some_iff.mp h
    have hchars : chars = front.flatMap fun part => part ++ [mark] := by
      have hclosed := @intercalate_append_separator _ [mark] (front ++ [[]]) (by simp)
      rw [List.flatMap_append, ← hsplit, List.intercalate_splitOn] at hclosed
      exact List.append_cancel_right hclosed
    rw [hchars]
    cases front using List.reverseRecOn with
    | nil => exact Or.inl rfl
    | append_singleton others part =>
        rw [List.flatMap_append, List.flatMap_singleton, ← List.append_assoc, List.getLast?_concat]
        exact Or.inr rfl
  · rintro (rfl | h)
    · rfl
    · obtain ⟨front, rfl⟩ := List.getLast?_eq_some_iff.mp h
      rw [List.splitOn_append_cons_self]
      simp

theorem getLast?_linesOf {text : String} :
    (linesOf text).getLast? = some "" ↔ text.toList = [] ∨ text.toList.getLast? = some '\n' := by
  rw [← getLast?_splitOn_eq_nil, linesOf, partsAt, List.getLast?_map, Option.map_eq_some_iff]
  constructor
  · rintro ⟨part, hpart, hempty⟩
    rw [hpart, String.ofList_eq_empty_iff.mp hempty]
  · intro h
    exact ⟨[], h, rfl⟩

/-- What is counted are the lines. -/
theorem countLines_eq (text : String) : countLines text = (closedLines text).length := by
  rw [countLines, closedLines]
  simp only [getLast?_linesOf, List.isEmpty_iff, Bool.or_eq_true, beq_iff_eq]
  split
  · rw [List.length_dropLast, length_linesOf, Nat.add_sub_cancel, Nat.add_zero]
  · rw [length_linesOf]

/-! ### Literals -/

/-- A character that stands for itself in a literal. -/
def isOrdinary (c : Char) : Bool := 0x20 ≤ c.toNat && c != '"' && c != '\\'

theorem ne_of_isOrdinary {c d : Char} (h : isOrdinary c = true) (hd : isOrdinary d = false) : c ≠ d := by
  rintro rfl
  exact Bool.false_ne_true (hd.symm.trans h)

theorem escapedCode_of_isOrdinary {c : Char} (h : isOrdinary c = true) :
    escapedCode .controls c.toNat = [c] := by
  simp only [isOrdinary, Bool.and_eq_true, decide_eq_true_eq, bne_iff_ne] at h
  obtain ⟨⟨hlow, hquote⟩, hslash⟩ := h
  have hcode : ∀ d : Char, c ≠ d → c.toNat ≠ d.toNat := fun d hne heq => hne (Char.toNat_inj.mp heq)
  have hquote' := hcode '"' hquote
  have hslash' := hcode '\\' hslash
  simp only [show ('"' : Char).toNat = 0x22 from rfl, show ('\\' : Char).toNat = 0x5C from rfl]
    at hquote' hslash'
  rw [escapedCode, if_neg hquote', if_neg hslash', if_neg (by omega), if_neg (by omega),
    if_neg (by omega), if_neg (by omega), if_neg (by omega), if_neg (by omega)]
  simp [Char.ofNat_toNat]

/-- A character is a control character, a mark of literals, or one that stands for itself. -/
theorem control_or_mark_or_isOrdinary (c : Char) :
    c.toNat < 0x20 ∨ (c = '"' ∨ c = '\\') ∨ isOrdinary c = true := by
  by_cases hlow : c.toNat < 0x20
  · exact Or.inl hlow
  · by_cases hmark : c = '"' ∨ c = '\\'
    · exact Or.inr (Or.inl hmark)
    · rw [not_or] at hmark
      simp only [isOrdinary, Bool.and_eq_true, decide_eq_true_eq, bne_iff_ne]
      exact Or.inr (Or.inr ⟨⟨Nat.le_of_not_lt hlow, hmark.1⟩, hmark.2⟩)

theorem not_mem_escapedCode {mark : Char} (hmark : mark = '\n' ∨ mark = '\r') (c : Char) :
    mark ∉ escapedCode .controls c.toNat := by
  have hcontrols : ∀ code < 0x20, mark ∉ escapedCode .controls code := by
    rcases hmark with rfl | rfl <;> decide
  rcases control_or_mark_or_isOrdinary c with hlow | (rfl | rfl) | hordinary
  · exact hcontrols c.toNat hlow
  · rcases hmark with rfl | rfl <;> decide
  · rcases hmark with rfl | rfl <;> decide
  · have hbarred : isOrdinary mark = false := by
      rcases hmark with rfl | rfl <;> decide
    rw [escapedCode_of_isOrdinary hordinary, List.mem_singleton]
    exact (ne_of_isOrdinary hordinary hbarred).symm

end Text

theorem toList_textLiteral (s : String) :
    (textLiteral s).toList =
      '"' :: s.toList.flatMap (fun c => Text.escapedCode .controls c.toNat) ++ ['"'] := by
  rw [textLiteral, Text.doubleQuoted, Text.doubleQuotedCodes, String.toList_ofList, List.flatMap_map]

theorem textLiteral_of_isOrdinary {s : String} (h : ∀ c ∈ s.toList, Text.isOrdinary c = true) :
    textLiteral s = String.singleton '"' ++ s ++ String.singleton '"' := by
  apply String.toList_injective
  rw [toList_textLiteral, List.flatMap_congr fun c hc => Text.escapedCode_of_isOrdinary (h c hc),
    List.flatMap_singleton']
  simp

/-- No text brings its literal to a second line. -/
theorem not_mem_textLiteral {mark : Char} (hmark : mark = '\n' ∨ mark = '\r') (s : String) :
    mark ∉ (textLiteral s).toList := by
  have hquote : mark ≠ '"' := by
    rcases hmark with rfl | rfl <;> decide
  rw [toList_textLiteral, List.cons_append, List.mem_cons, List.mem_append, List.mem_singleton, not_or, not_or]
  refine ⟨hquote, fun hmem => ?_, hquote⟩
  obtain ⟨c, -, hc⟩ := List.mem_flatMap.mp hmem
  exact Text.not_mem_escapedCode hmark c hc

theorem lineFeed_not_mem_textLiteral (s : String) : '\n' ∉ (textLiteral s).toList :=
  not_mem_textLiteral (Or.inl rfl) s

end ApiScaffold
