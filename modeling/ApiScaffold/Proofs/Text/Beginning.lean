import Mathlib

/-! How texts begin: what stands behind a beginning, and beginnings that no text has both. -/

namespace ApiScaffold.Text

/-- What stands behind a beginning of a text, if the text begins so. -/
def behind? (front text : String) : Option String :=
  (text.toList.dropPrefix? front.toList).map String.ofList

/-- No text begins in both ways. -/
def Apart (first second : String) : Prop :=
  ¬first.toList <+: second.toList ∧ ¬second.toList <+: first.toList

instance (first second : String) : Decidable (Apart first second) := inferInstanceAs (Decidable (_ ∧ _))

/-- A text is empty, or begins in one of some ways. -/
def Opens (fronts : List String) (text : String) : Prop :=
  text = "" ∨ ∃ front ∈ fronts, front.toList <+: text.toList

instance (fronts : List String) (text : String) : Decidable (Opens fronts text) :=
  inferInstanceAs (Decidable (_ ∨ _))

variable {front text : String} {fronts lines : List String}

theorem behind?_append (front rest : String) : behind? front (front ++ rest) = some rest := by
  have hdrop : (front ++ rest).toList.dropPrefix? front.toList = some rest.toList := by
    rw [List.dropPrefix?_eq_some_iff]
    exact ⟨front.toList, String.toList_append, beq_self_eq_true _⟩
  rw [behind?, hdrop, Option.map_some, String.ofList_toList]

theorem behind?_eq_none (h : ¬front.toList <+: text.toList) : behind? front text = none := by
  rw [behind?, Option.map_eq_none_iff]
  by_contra hsome
  obtain ⟨rest, hrest⟩ := Option.ne_none_iff_exists'.mp hsome
  obtain ⟨start, htext, hstart⟩ := List.dropPrefix?_eq_some_iff.mp hrest
  rw [eq_of_beq hstart] at htext
  exact h ⟨rest, htext.symm⟩

theorem behind?_empty (hne : front ≠ "") : behind? front "" = none := by
  apply behind?_eq_none
  intro hfront
  exact hne (String.toList_injective (List.prefix_nil.mp hfront))

/-- A text that begins in one way does not begin in another that is apart from it. -/
theorem behind?_of_prefix {other : String} (hapart : Apart front other)
    (h : other.toList <+: text.toList) : behind? front text = none := by
  apply behind?_eq_none
  intro hfront
  rcases List.prefix_or_prefix_of_prefix hfront h with hle | hle
  · exact hapart.1 hle
  · exact hapart.2 hle

theorem behind?_of_opens (hne : front ≠ "") (hapart : ∀ other ∈ fronts, Apart front other)
    (h : Opens fronts text) : behind? front text = none := by
  rcases h with rfl | ⟨other, hother, hprefix⟩
  · exact behind?_empty hne
  · exact behind?_of_prefix (hapart other hother) hprefix

theorem filterMap_behind?_of_opens (hne : front ≠ "") (hapart : ∀ other ∈ fronts, Apart front other)
    (h : ∀ line ∈ lines, Opens fronts line) : lines.filterMap (behind? front) = [] := by
  rw [List.filterMap_eq_nil_iff]
  exact fun line hline => behind?_of_opens hne hapart (h line hline)

theorem prefix_append (front rest : String) : front.toList <+: (front ++ rest).toList := by
  rw [String.toList_append]
  exact List.prefix_append _ _

theorem Opens.of_prefix {rest : String} (hfront : front ∈ fronts) : Opens fronts (front ++ rest) :=
  Or.inr ⟨front, hfront, prefix_append front rest⟩

end ApiScaffold.Text
