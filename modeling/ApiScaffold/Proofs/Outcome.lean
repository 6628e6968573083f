import Mathlib
import ApiScaffold.Proofs.Lists

/-! Outcomes of steps that may fail, taken for all items of a list: they are all there exactly if each
step gives one, and a fault of the whole is the fault of some step. -/

namespace ApiScaffold.Outcome

variable {ε ε' α β : Type}

theorem bind_eq_ok {step : Except ε α} {next : α → Except ε β} {b : β} :
    step >>= next = .ok b ↔ ∃ a, step = .ok a ∧ next a = .ok b := by
  cases step with
  | error fault => simp [bind, Except.bind]
  | ok a => simp [bind, Except.bind]

theorem bind_eq_error {step : Except ε α} {next : α → Except ε β} {fault : ε} :
    step >>= next = .error fault ↔
      step = .error fault ∨ ∃ a, step = .ok a ∧ next a = .error fault := by
  cases step with
  | error first => simp [bind, Except.bind]
  | ok a => simp [bind, Except.bind]

theorem map_eq_ok {step : Except ε α} {f : α → β} {b : β} :
    step.map f = .ok b ↔ ∃ a, step = .ok a ∧ f a = b := by
  cases step with
  | error fault => simp [Except.map]
  | ok a => simp [Except.map]

theorem map_eq_error {step : Except ε α} {f : α → β} {fault : ε} :
    step.map f = .error fault ↔ step = .error fault := by
  cases step with
  | error first => simp [Except.map]
  | ok a => simp [Except.map]

theorem mapError_eq_ok {step : Except ε α} {f : ε → ε'} {a : α} :
    step.mapError f = .ok a ↔ step = .ok a := by
  cases step with
  | error first => simp [Except.mapError]
  | ok b => simp [Except.mapError]

theorem mapError_eq_error {step : Except ε α} {f : ε → ε'} {fault : ε'} :
    step.mapError f = .error fault ↔ ∃ first, step = .error first ∧ f first = fault := by
  cases step with
  | error first => simp [Except.mapError]
  | ok a => simp [Except.mapError]

theorem toOption_eq_some {step : Except ε α} {a : α} : step.toOption = some a ↔ step = .ok a := by
  cases step with
  | error fault => simp [Except.toOption]
  | ok b => simp [Except.toOption]

/-- A step that is known to succeed has a result. -/
theorem exists_eq_ok {step : Except ε α} (h : step.isOk = true) : ∃ a, step = .ok a := by
  cases step with
  | error fault => cases h
  | ok a => exact ⟨a, rfl⟩

/-- The outcomes for all items are those of the single ones, in order. -/
theorem mapM_eq_ok {step : α → Except ε β} {items : List α} {results : List β} :
    items.mapM step = .ok results ↔
      List.Forall₂ (fun item result => step item = .ok result) items results := by
  induction items generalizing results with
  | nil =>
      rw [List.mapM_nil, List.forall₂_nil_left_iff]
      exact ⟨fun h => (Except.ok.inj h).symm, fun h => congrArg Except.ok h.symm⟩
  | cons item rest ih =>
      rw [List.mapM_cons, bind_eq_ok, List.forall₂_cons_left_iff]
      constructor
      · rintro ⟨result, hresult, hrest⟩
        obtain ⟨others, hothers, heq⟩ := bind_eq_ok.mp hrest
        exact ⟨result, others, hresult, ih.mp hothers, (Except.ok.inj heq).symm⟩
      · rintro ⟨result, others, hresult, hothers, rfl⟩
        exact ⟨result, hresult, bind_eq_ok.mpr ⟨others, ih.mpr hothers, rfl⟩⟩

/-- Where it is known which items have an outcome and which one, the same is known of all of them. -/
theorem mapM_eq_ok_iff {step : α → Except ε β} {accepts : α → Prop} {f : α → β} {items : List α}
    (h : ∀ item ∈ items, ∀ result, step item = .ok result ↔ accepts item ∧ result = f item)
    {results : List β} :
    items.mapM step = .ok results ↔ (∀ item ∈ items, accepts item) ∧ results = items.map f := by
  rw [mapM_eq_ok]
  induction items generalizing results with
  | nil => simp
  | cons item rest ih =>
      obtain ⟨hitem, hrest⟩ := List.forall_mem_cons.mp h
      rw [List.forall₂_cons_left_iff, List.forall_mem_cons, List.map_cons]
      constructor
      · rintro ⟨result, others, hresult, hothers, rfl⟩
        obtain ⟨haccepts, rfl⟩ := (hitem result).mp hresult
        obtain ⟨hall, rfl⟩ := (ih hrest).mp hothers
        exact ⟨⟨haccepts, hall⟩, rfl⟩
      · rintro ⟨⟨haccepts, hall⟩, rfl⟩
        exact ⟨_, _, (hitem _).mpr ⟨haccepts, rfl⟩, (ih hrest).mpr ⟨hall, rfl⟩, rfl⟩

theorem mapM_eq_ok_map {step : α → Except ε β} {f : α → β} {items : List α}
    (h : ∀ item ∈ items, step item = .ok (f item)) : items.mapM step = .ok (items.map f) := by
  rw [mapM_eq_ok, List.forall₂_map_right_iff, List.forall₂_same]
  exact h

/-- Where only some items are taken, the step is taken for those. -/
theorem mapM_filter {step : α → Except ε β} {taken : α → Bool} (items : List α) :
    (items.mapM fun item => if taken item then (step item).map some else .ok none).map
        (List.filterMap id) = (items.filter taken).mapM step := by
  induction items with
  | nil => rfl
  | cons item rest ih =>
      rw [List.mapM_cons, List.filter_cons]
      generalize (rest.mapM fun item => if taken item then (step item).map some else .ok none) =
        others at ih ⊢
      cases taken item with
      | false =>
          rw [if_neg Bool.false_ne_true, if_neg Bool.false_ne_true, ← ih]
          cases others <;> rfl
      | true =>
          rw [if_pos rfl, if_pos rfl, List.mapM_cons, ← ih]
          cases step item with
          | error fault => rfl
          | ok result => cases others <;> rfl

/-- Steps that succeed alike for all items succeed alike for the list. -/
theorem mapM_eq_ok_congr {step : α → Except ε β} {step' : α → Except ε' β} {items : List α}
    (h : ∀ item ∈ items, ∀ result, step item = .ok result ↔ step' item = .ok result) {results : List β} :
    items.mapM step = .ok results ↔ items.mapM step' = .ok results := by
  rw [mapM_eq_ok, mapM_eq_ok]
  induction items generalizing results with
  | nil => rw [List.forall₂_nil_left_iff, List.forall₂_nil_left_iff]
  | cons item rest ih =>
      obtain ⟨hitem, hrest⟩ := List.forall_mem_cons.mp h
      simp only [List.forall₂_cons_left_iff, hitem, ih hrest]

/-- A fault for all items is the fault of one of them. -/
theorem mapM_eq_error {step : α → Except ε β} {items : List α} {fault : ε}
    (h : items.mapM step = .error fault) : ∃ item ∈ items, step item = .error fault := by
  induction items with
  | nil => cases h
  | cons item rest ih =>
      rw [List.mapM_cons] at h
      rcases bind_eq_error.mp h with hfirst | ⟨result, -, hrest⟩
      · exact ⟨item, List.mem_cons_self, hfirst⟩
      · rcases bind_eq_error.mp hrest with hothers | ⟨others, -, hpure⟩
        · obtain ⟨other, hmem, hother⟩ := ih hothers
          exact ⟨other, List.mem_cons_of_mem _ hmem, hother⟩
        · cases hpure

/-- Where every item has an outcome, all of them have. -/
theorem exists_mapM_eq_ok {step : α → Except ε β} {items : List α}
    (h : ∀ item ∈ items, ∃ result, step item = .ok result) :
    ∃ results, items.mapM step = .ok results := by
  cases hall : items.mapM step with
  | ok results => exact ⟨results, rfl⟩
  | error fault =>
      obtain ⟨item, hmem, hfault⟩ := mapM_eq_error hall
      obtain ⟨result, hresult⟩ := h item hmem
      rw [hfault] at hresult
      cases hresult

theorem mapM_map_eq {γ : Type} {step : α → Except ε β} {items : List α} {results : List β}
    {f : β → γ} {g : α → γ} (h : items.mapM step = .ok results)
    (hstep : ∀ item ∈ items, ∀ result, step item = .ok result → f result = g item) :
    results.map f = items.map g := map_eq_map_of_forall₂ (mapM_eq_ok.mp h) hstep

/-- What each outcome yields is what its item does, one by one and in order. -/
theorem mapM_filterMap_eq {γ : Type} {step : α → Except ε β} {items : List α} {results : List β}
    {f : β → Option γ} {g : α → γ} (h : items.mapM step = .ok results)
    (hstep : ∀ item ∈ items, ∀ result, step item = .ok result → f result = some (g item)) :
    results.filterMap f = items.map g := by
  have hmap : results.map f = items.map fun item => some (g item) := mapM_map_eq h hstep
  rw [← Function.id_comp f, ← List.filterMap_map, hmap, List.filterMap_map]
  exact congrFun List.filterMap_eq_map' items

theorem exists_of_mem_mapM {step : α → Except ε β} {items : List α} {results : List β}
    (h : items.mapM step = .ok results) {item : α} (hitem : item ∈ items) :
    ∃ result ∈ results, step item = .ok result :=
  exists_of_mem_forall₂ (mapM_eq_ok.mp h) hitem

/-- All items have an outcome exactly if each of them has one. -/
theorem exists_mapM_iff {step : α → Except ε β} {items : List α} :
    (∃ results, items.mapM step = .ok results) ↔ ∀ item ∈ items, ∃ result, step item = .ok result := by
  refine ⟨fun ⟨results, h⟩ item hitem => ?_, exists_mapM_eq_ok⟩
  obtain ⟨result, -, hresult⟩ := exists_of_mem_mapM h hitem
  exact ⟨result, hresult⟩

/-- Behind a last step that cannot fail, there is an outcome if there was one before it. -/
theorem exists_map_iff {step : Except ε α} {f : α → β} :
    (∃ b, step.map f = .ok b) ↔ ∃ a, step = .ok a := by
  cases step with
  | error fault => simp [Except.map]
  | ok a => simp [Except.map]

theorem exists_of_mem_results {step : α → Except ε β} {items : List α} {results : List β}
    (h : items.mapM step = .ok results) {result : β} (hresult : result ∈ results) :
    ∃ item ∈ items, step item = .ok result :=
  exists_of_mem_forall₂ (mapM_eq_ok.mp h).flip hresult

theorem of_mem_zip {step : α → Except ε β} {items : List α} {results : List β}
    (h : items.mapM step = .ok results) {item : α} {result : β}
    (hpair : (item, result) ∈ items.zip results) : step item = .ok result :=
  (List.forall₂_iff_zip.mp (mapM_eq_ok.mp h)).2 hpair

/-! ### Optional items -/

theorem option_mapM_eq_error {step : α → Except ε β} {item : Option α} {fault : ε} :
    item.mapM step = .error fault ↔ ∃ a ∈ item, step a = .error fault := by
  cases item with
  | none => simp [pure, Except.pure]
  | some a => cases h : step a <;> simp [h, Functor.map, Except.map]

theorem option_isSome_of_mapM {step : α → Except ε β} {item : Option α} {result : Option β}
    (h : item.mapM step = .ok result) : result.isSome = item.isSome := by
  cases item with
  | none =>
      cases h
      rfl
  | some a =>
      obtain ⟨b, -, rfl⟩ := map_eq_ok.mp h
      rfl

end ApiScaffold.Outcome
