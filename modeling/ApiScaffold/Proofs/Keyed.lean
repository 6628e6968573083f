import Mathlib
import ApiScaffold.Keyed

/-! Gathered entries: no name is left over from entries of one name, so as many entries are gathered
as there were exactly if all names differ, and then they are the entries themselves. -/

namespace ApiScaffold.Keyed

variable {α : Type} {entries : List (String × α)}

theorem set_of_mem {name : String} {content : α} (h : name ∈ entries.map (·.1)) :
    (set entries name content).map (·.1) = entries.map (·.1) := by
  obtain ⟨entry, hentry, heq⟩ := List.mem_map.mp h
  have hany : (entries.any fun other => other.1 == name) = true :=
    List.any_eq_true.mpr ⟨entry, hentry, by simp [heq]⟩
  rw [set, if_pos hany, List.map_map]
  apply List.map_congr_left
  intro other _
  by_cases hname : other.1 = name
  · simp [hname]
  · simp [hname]

theorem set_of_not_mem {name : String} {content : α} (h : name ∉ entries.map (·.1)) :
    set entries name content = entries ++ [(name, content)] := by
  have hany : ¬(entries.any fun other => other.1 == name) = true := by
    rw [List.any_eq_true]
    rintro ⟨other, hother, heq⟩
    exact h (beq_iff_eq.mp heq ▸ List.mem_map_of_mem hother)
  rw [set, if_neg hany]

theorem setAll_cons {entry : String × α} {new : List (String × α)} :
    setAll entries (entry :: new) = setAll (set entries entry.1 entry.2) new := rfl

theorem setAll_of_nodup {new : List (String × α)}
    (h : (entries.map (·.1) ++ new.map (·.1)).Nodup) : setAll entries new = entries ++ new := by
  induction new generalizing entries with
  | nil => rw [List.append_nil]; rfl
  | cons entry rest ih =>
      rw [List.map_cons] at h
      have hfresh : entry.1 ∉ entries.map (·.1) := fun hmem =>
        List.disjoint_of_nodup_append h hmem List.mem_cons_self
      rw [setAll_cons, set_of_not_mem hfresh, ih (by simpa using h), List.append_assoc]
      rfl

theorem length_setAll_le (new : List (String × α)) :
    (setAll entries new).length ≤ entries.length + new.length := by
  induction new generalizing entries with
  | nil => exact le_of_eq rfl
  | cons entry rest ih =>
      have hset : (set entries entry.1 entry.2).length ≤ entries.length + 1 := by
        rw [set]
        split <;> simp
      rw [setAll_cons, List.length_cons]
      have hrest := @ih (set entries entry.1 entry.2)
      omega

/-- A name that occurs again makes the gathered entries fewer. -/
theorem length_setAll_lt {new : List (String × α)} (hentries : (entries.map (·.1)).Nodup)
    (h : ¬(entries.map (·.1) ++ new.map (·.1)).Nodup) :
    (setAll entries new).length < entries.length + new.length := by
  induction new generalizing entries with
  | nil => exact absurd (by simpa using hentries) h
  | cons entry rest ih =>
      rw [setAll_cons, List.length_cons]
      by_cases hmem : entry.1 ∈ entries.map (·.1)
      · have hkeys := congrArg List.length (@set_of_mem α entries entry.1 entry.2 hmem)
        rw [List.length_map, List.length_map] at hkeys
        have hrest := @length_setAll_le α (set entries entry.1 entry.2) rest
        omega
      · rw [set_of_not_mem hmem]
        have hnodup : ((entries ++ [(entry.1, entry.2)]).map (·.1)).Nodup := by
          rw [List.map_append, List.map_singleton, List.nodup_append_comm]
          exact List.nodup_cons.mpr ⟨hmem, hentries⟩
        have hrest := ih hnodup (by simpa using h)
        rw [List.length_append, List.length_singleton] at hrest
        omega

theorem ofList_of_nodup (h : (entries.map (·.1)).Nodup) : ofList entries = entries := by
  rw [ofList, setAll_of_nodup (by simpa using h), List.nil_append]

/-- Nothing is lost in gathering exactly if all names differ. -/
theorem length_ofList_iff : (ofList entries).length = entries.length ↔ (entries.map (·.1)).Nodup := by
  constructor
  · intro hlength
    by_contra hnodup
    have hlt := @length_setAll_lt α [] entries List.nodup_nil (by simpa using hnodup)
    rw [List.length_nil, Nat.zero_add] at hlt
    exact absurd hlength (Nat.ne_of_lt hlt)
  · intro hnodup
    rw [ofList_of_nodup hnodup]

/-! ### What is gathered -/

theorem mem_of_mem_set {name : String} {content : α} {entry : String × α}
    (h : entry ∈ set entries name content) : entry ∈ entries ∨ entry = (name, content) := by
  rw [set] at h
  split at h
  · obtain ⟨other, hother, rfl⟩ := List.mem_map.mp h
    split
    · exact Or.inr rfl
    · exact Or.inl hother
  · rcases List.mem_append.mp h with hold | hnew
    · exact Or.inl hold
    · exact Or.inr (List.mem_singleton.mp hnew)

theorem mem_names_set {name other : String} {content : α} :
    other ∈ (set entries name content).map (·.1) ↔ other ∈ entries.map (·.1) ∨ other = name := by
  by_cases hmem : name ∈ entries.map (·.1)
  · rw [set_of_mem hmem]
    exact (or_iff_left_of_imp fun heq => heq ▸ hmem).symm
  · rw [set_of_not_mem hmem, List.map_append, List.mem_append, List.map_singleton,
      List.mem_singleton]

theorem mem_of_mem_setAll {new : List (String × α)} {entry : String × α}
    (h : entry ∈ setAll entries new) : entry ∈ entries ∨ entry ∈ new := by
  induction new generalizing entries with
  | nil => exact Or.inl h
  | cons first rest ih =>
      rw [List.mem_cons, ← or_assoc]
      exact (ih h).imp_left mem_of_mem_set

theorem mem_names_setAll {new : List (String × α)} {name : String} :
    name ∈ (setAll entries new).map (·.1) ↔ name ∈ entries.map (·.1) ∨ name ∈ new.map (·.1) := by
  induction new generalizing entries with
  | nil => simp [setAll]
  | cons first rest ih =>
      rw [setAll_cons, ih, mem_names_set, List.map_cons, List.mem_cons, or_assoc]

/-- Nothing is gathered that was not there. -/
theorem mem_of_mem_ofList {entry : String × α} (h : entry ∈ ofList entries) : entry ∈ entries :=
  (mem_of_mem_setAll h).resolve_left List.not_mem_nil

/-- Every name is kept. -/
theorem mem_names_ofList {name : String} :
    name ∈ (ofList entries).map (·.1) ↔ name ∈ entries.map (·.1) := by
  rw [ofList, mem_names_setAll, List.map_nil, or_iff_right List.not_mem_nil]

end ApiScaffold.Keyed
