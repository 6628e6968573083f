import Mathlib

/-! Facts about lists with unique members and about lists of named entries, as the graph of
relations, the tables and the generated modules use them. -/

namespace ApiScaffold

theorem nodup_eraseDups {α : Type} [DecidableEq α] (items : List α) : items.eraseDups.Nodup := by
  induction hlength : items.length using Nat.strong_induction_on generalizing items with
  | _ length ih =>
      cases items with
      | nil => exact List.nodup_nil
      | cons first rest =>
          rw [List.eraseDups_cons, List.nodup_cons]
          constructor
          · rw [List.mem_eraseDups, List.mem_filter]
            rintro ⟨-, hne⟩
            simp at hne
          · apply ih _ _ _ rfl
            rw [← hlength, List.length_cons]
            exact Nat.lt_succ_of_le (List.length_filter_le _ _)

/-- The first mark in a list tells what is before it from what is behind it. -/
theorem append_mark_inj {α : Type} {mark : α} {before before' behind behind' : List α}
    (hbefore : mark ∉ before) (hbefore' : mark ∉ before')
    (h : before ++ mark :: behind = before' ++ mark :: behind') :
    before = before' ∧ behind = behind' := by
  induction before generalizing before' with
  | nil =>
      cases before' with
      | nil => exact ⟨rfl, (List.cons.inj h).2⟩
      | cons first rest => exact absurd ((List.cons.inj h).1 ▸ List.mem_cons_self) hbefore'
  | cons first rest ih =>
      rw [List.mem_cons, not_or] at hbefore
      cases before' with
      | nil => exact absurd (List.cons.inj h).1.symm hbefore.1
      | cons first' rest' =>
          rw [List.mem_cons, not_or] at hbefore'
          obtain ⟨hfirst, hrest⟩ := List.cons.inj h
          obtain ⟨heq, hbehind⟩ := ih hbefore.2 hbefore'.2 hrest
          exact ⟨by rw [hfirst, heq], hbehind⟩

/-- Where members go by different names, a name selects one of them. -/
theorem filter_eq_singleton {α β : Type} [BEq β] [LawfulBEq β] {items : List α} {name : α → β}
    (hnodup : (items.map name).Nodup) {item : α} (hmem : item ∈ items) :
    (items.filter fun other => name other == name item) = [item] := by
  induction items with
  | nil => exact absurd hmem List.not_mem_nil
  | cons first rest ih =>
      rw [List.map_cons, List.nodup_cons] at hnodup
      rcases List.mem_cons.mp hmem with rfl | hrest
      · have hothers : (rest.filter fun other => name other == name item) = [] := by
          rw [List.filter_eq_nil_iff]
          intro other hother heq
          exact hnodup.1 (beq_iff_eq.mp heq ▸ List.mem_map_of_mem hother)
        simp [hothers]
      · have hne : name first ≠ name item := fun heq =>
          hnodup.1 (heq ▸ List.mem_map_of_mem hrest)
        simp [hne, ih hnodup.2 hrest]

theorem map_eq_map_of_forall₂ {α β γ : Type} {related : α → β → Prop} {items : List α}
    {results : List β} {f : α → γ} {g : β → γ} (h : List.Forall₂ related items results)
    (heq : ∀ item ∈ items, ∀ result, related item result → g result = f item) :
    results.map g = items.map f := by
  induction h with
  | nil => rfl
  | cons hfirst _ ih =>
      rw [List.forall_mem_cons] at heq
      rw [List.map_cons, List.map_cons, heq.1 _ hfirst, ih heq.2]

theorem exists_of_mem_forall₂ {α β : Type} {related : α → β → Prop} {items : List α}
    {results : List β} (h : List.Forall₂ related items results) {item : α} (hitem : item ∈ items) :
    ∃ result ∈ results, related item result := by
  induction h with
  | nil => exact absurd hitem List.not_mem_nil
  | cons hfirst _ ih =>
      rcases List.mem_cons.mp hitem with rfl | hrest
      · exact ⟨_, List.mem_cons_self, hfirst⟩
      · obtain ⟨result, hmem, hrelated⟩ := ih hrest
        exact ⟨result, List.mem_cons_of_mem _ hmem, hrelated⟩

/-- Where items go by different names, a name selects the one result of its item. -/
theorem exists_filter_eq_singleton {α β γ : Type} [BEq γ] [LawfulBEq γ] {related : α → β → Prop}
    {items : List α} {results : List β} {name : α → γ} {name' : β → γ}
    (h : List.Forall₂ related items results)
    (hname : ∀ item result, related item result → name' result = name item)
    (hnodup : (items.map name).Nodup) {item : α} (hmem : item ∈ items) :
    ∃ result, related item result ∧ (results.filter fun other => name' other == name item) = [result] := by
  have hagree : ∀ other result, related other result →
      ((name other == name item) = true ↔ (name' result == name item) = true) := by
    intro other result hrelated
    rw [hname other result hrelated]
  have hselected := List.rel_filter (fun other result hrelated => hagree other result hrelated) h
  rw [filter_eq_singleton hnodup hmem] at hselected
  obtain ⟨result, others, hrelated, hothers, heq⟩ := List.forall₂_cons_left_iff.mp hselected
  rw [List.forall₂_nil_left_iff.mp hothers] at heq
  exact ⟨result, hrelated, heq⟩

theorem mapM_eq_some_of_forall₂ {α β : Type} {f : α → Option β} {items : List α} {results : List β}
    (h : List.Forall₂ (fun item result => f item = some result) items results) :
    items.mapM f = some results := by
  induction h with
  | nil => rfl
  | cons hfirst _ ih =>
      rw [List.mapM_cons, hfirst, ih]
      rfl

/-- Items that make nothing may be left out. -/
theorem flatMap_filter {α β : Type} {items : List α} {keep : α → Bool} {f : α → List β}
    (h : ∀ item ∈ items, keep item = false → f item = []) :
    (items.filter keep).flatMap f = items.flatMap f := by
  induction items with
  | nil => rfl
  | cons item rest ih =>
      obtain ⟨hitem, hrest⟩ := List.forall_mem_cons.mp h
      rw [List.filter_cons, List.flatMap_cons]
      split
      · rw [List.flatMap_cons, ih hrest]
      · rename_i hdrop
        rw [ih hrest, hitem (by simpa using hdrop), List.nil_append]

/-- Different companions keep what is made of an item and its companion different. -/
theorem nodup_map_zip {α β γ : Type} {items : List α} {others : List β} {f : α × β → γ}
    (hlength : others.length = items.length) (hnodup : others.Nodup)
    (hinj : ∀ a ∈ items.zip others, ∀ b ∈ items.zip others, f a = f b → a.2 = b.2) :
    ((items.zip others).map f).Nodup := by
  have hothers : (items.zip others).map Prod.snd = others :=
    List.map_snd_zip (le_of_eq hlength)
  rw [← hothers] at hnodup
  apply hnodup.of_map.map_on
  intro a ha b hb heq
  exact List.inj_on_of_nodup_map hnodup ha hb (hinj a ha b hb heq)

/-- Where what is made of two items differs exactly if their keys do, all of it differs exactly if the
keys do. -/
theorem nodup_flatMap_iff {α β γ : Type} {items : List α} {f : α → List β} {key : α → γ}
    (hown : ∀ item, (f item).Nodup)
    (hpair : ∀ item other, (f item).Disjoint (f other) ↔ key item ≠ key other) :
    (items.flatMap f).Nodup ↔ (items.map key).Nodup := by
  rw [List.nodup_flatMap, List.nodup_iff_pairwise_ne, List.pairwise_map]
  constructor
  · rintro ⟨-, hpairs⟩
    exact hpairs.imp fun hdisjoint => (hpair _ _).mp hdisjoint
  · intro hpairs
    exact ⟨fun item _ => hown item, hpairs.imp fun hne => (hpair _ _).mpr hne⟩

section Lookup

variable {α : Type} {entries : List (String × α)} {name : String}

theorem lookup_eq_none_of_not_mem (h : name ∉ entries.map (·.1)) : entries.lookup name = none := by
  induction entries with
  | nil => rfl
  | cons entry rest ih =>
      rw [List.map_cons, List.mem_cons, not_or] at h
      rw [List.lookup_cons, beq_false_of_ne h.1]
      exact ih h.2

theorem mem_of_lookup {content : α} (h : entries.lookup name = some content) : (name, content) ∈ entries := by
  obtain ⟨before, behind, rfl, -⟩ := List.lookup_eq_some_iff.mp h
  exact List.mem_append_right before List.mem_cons_self

theorem lookup_of_mem {content : α} (hnodup : (entries.map (·.1)).Nodup)
    (hmem : (name, content) ∈ entries) : entries.lookup name = some content := by
  induction entries with
  | nil => exact absurd hmem List.not_mem_nil
  | cons first rest ih =>
      rw [List.map_cons, List.nodup_cons] at hnodup
      rw [List.lookup_cons]
      rcases List.mem_cons.mp hmem with heq | hrest
      · rw [← heq, beq_self_eq_true]
      · have hne : name ≠ first.1 := by
          intro heq
          exact hnodup.1 (heq ▸ List.mem_map_of_mem hrest)
        rw [beq_false_of_ne hne]
        exact ih hnodup.2 hrest

theorem lookup_map_self (content : String → α) (names : List String) (name : String) :
    (names.map fun n => (n, content n)).lookup name =
      if name ∈ names then some (content name) else none := by
  induction names with
  | nil => rfl
  | cons first rest ih =>
      rw [List.map_cons, List.lookup_cons]
      by_cases h : name = first
      · rw [h, beq_self_eq_true, if_pos List.mem_cons_self]
      · rw [beq_false_of_ne h, ih]
        simp only [List.mem_cons, h, false_or]

end Lookup

section Intercalate

variable {α : Type} {separator : List α} {groups : List (List α)}

theorem mem_of_mem_intercalate {a : α} (h : a ∈ List.intercalate separator groups) :
    a ∈ separator ∨ ∃ group ∈ groups, a ∈ group := by
  induction groups with
  | nil => exact absurd h List.not_mem_nil
  | cons first rest ih =>
      cases rest with
      | nil =>
          rw [List.intercalate_singleton] at h
          exact Or.inr ⟨first, List.mem_cons_self, h⟩
      | cons second rest =>
          rw [List.intercalate_cons_cons, List.append_assoc, List.mem_append, List.mem_append] at h
          rcases h with hfirst | hseparator | hrest
          · exact Or.inr ⟨first, List.mem_cons_self, hfirst⟩
          · exact Or.inl hseparator
          · rcases ih hrest with hseparator | ⟨group, hgroup, hmem⟩
            · exact Or.inl hseparator
            · exact Or.inr ⟨group, List.mem_cons_of_mem first hgroup, hmem⟩

theorem not_mem_intercalate {a : α} (hseparator : a ∉ separator) (hgroups : ∀ group ∈ groups, a ∉ group) :
    a ∉ List.intercalate separator groups := by
  intro h
  rcases mem_of_mem_intercalate h with hmem | ⟨group, hgroup, hmem⟩
  · exact hseparator hmem
  · exact hgroups group hgroup hmem

/-- A filter that drops the separator and keeps the groups leaves the groups joined. -/
theorem filter_intercalate {keep : α → Bool} (hseparator : ∀ a ∈ separator, keep a = false)
    (hgroups : ∀ group ∈ groups, ∀ a ∈ group, keep a = true) :
    (List.intercalate separator groups).filter keep = groups.flatten := by
  induction groups with
  | nil => rfl
  | cons first rest ih =>
      obtain ⟨hfirst, hrest⟩ := List.forall_mem_cons.mp hgroups
      cases rest with
      | nil => rw [List.intercalate_singleton, List.filter_eq_self.mpr hfirst, List.flatten_singleton]
      | cons second rest =>
          have hdropped : separator.filter keep = [] := List.filter_eq_nil_iff.mpr fun a ha => by
            simp [hseparator a ha]
          rw [List.intercalate_cons_cons, List.filter_append, List.filter_append, hdropped, List.append_nil,
            List.filter_eq_self.mpr hfirst, ih hrest]
          rfl

/-- With a separator behind the last one too, every group ends with it. -/
theorem intercalate_append_separator (hne : groups ≠ []) :
    List.intercalate separator groups ++ separator = groups.flatMap fun group => group ++ separator := by
  induction groups with
  | nil => exact absurd rfl hne
  | cons first rest ih =>
      cases rest with
      | nil => rw [List.intercalate_singleton, List.flatMap_cons, List.flatMap_nil, List.append_nil]
      | cons second rest =>
          rw [List.intercalate_cons_cons, List.append_assoc, ih (List.cons_ne_nil second rest)]
          rfl

end Intercalate

end ApiScaffold
