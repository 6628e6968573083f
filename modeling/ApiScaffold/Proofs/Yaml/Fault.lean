import Mathlib
import ApiScaffold.Yaml.Fault

/-! Faults that are reported as issues of a text: all but those of content. A step that fails only with
such faults and keeps an invariant is made of steps that do the same. -/

namespace ApiScaffold.Yaml

/-- Faults of the text are reported, faults of content are not. -/
def Fault.IsReported : Fault → Prop
  | .content _ => False
  | _ => True

instance : (fault : Fault) → Decidable fault.IsReported
  | .content _ => inferInstanceAs (Decidable False)
  | .badCharacter .. | .marked _ => inferInstanceAs (Decidable True)

variable {α β σ : Type}

/-- An outcome has a property, or its fault is reported. -/
def Yields (property : α → Prop) : Except Fault α → Prop
  | .ok a => property a
  | .error fault => fault.IsReported

instance (property : α → Prop) [DecidablePred property] :
    (outcome : Except Fault α) → Decidable (Yields property outcome)
  | .ok a => inferInstanceAs (Decidable (property a))
  | .error fault => inferInstanceAs (Decidable fault.IsReported)

namespace Yields

variable {property stronger : α → Prop} {property' : β → Prop} {outcome : Except Fault α}

theorem imp (h : Yields property outcome) (himp : ∀ a, property a → stronger a) :
    Yields stronger outcome := by
  cases outcome with
  | ok a => exact himp a h
  | error fault => exact h

theorem bind {next : α → Except Fault β} (h : Yields property outcome)
    (hnext : ∀ a, property a → Yields property' (next a)) : Yields property' (outcome >>= next) := by
  cases outcome with
  | ok a => exact hnext a h
  | error fault => exact h

/-- The items of a list are taken one after another, and each step keeps the property. -/
theorem foldlM {step : α → β → Except Fault α} {items : List β} {start : α} (h : property start)
    (hstep : ∀ a, ∀ item ∈ items, property a → Yields property (step a item)) :
    Yields property (items.foldlM step start) := by
  induction items generalizing start with
  | nil => exact h
  | cons item rest ih =>
      rw [List.foldlM_cons]
      exact (hstep start item List.mem_cons_self h).bind fun a ha =>
        ih ha fun a item hitem => hstep a item (List.mem_cons_of_mem _ hitem)

end Yields

/-! ### Steps on a state -/

/-- From a state, a step leaves one with the property, or its fault is reported. -/
def YieldsFrom (kept : σ → Prop) (s : σ) (step : StateT σ (Except Fault) α) : Prop :=
  Yields (fun result => kept result.2) (step.run s)

/-- A step keeps a property of the state. -/
def Keeps (kept : σ → Prop) (step : StateT σ (Except Fault) α) : Prop :=
  ∀ s, kept s → YieldsFrom kept s step

section Steps

variable {kept : σ → Prop} {s : σ} {step : StateT σ (Except Fault) α}
  {next : α → StateT σ (Except Fault) β}

theorem YieldsFrom.bind (h : YieldsFrom kept s step) (hnext : ∀ a, Keeps kept (next a)) :
    YieldsFrom kept s (step >>= next) := by
  rw [YieldsFrom, StateT.run_bind]
  exact Yields.bind h fun result hresult => hnext result.1 result.2 hresult

theorem YieldsFrom.get_bind {next : σ → StateT σ (Except Fault) β} (h : YieldsFrom kept s (next s)) :
    YieldsFrom kept s (get >>= next) := h

theorem YieldsFrom.set_bind {s' : σ} {next : PUnit → StateT σ (Except Fault) β}
    (h : YieldsFrom kept s' (next ⟨⟩)) : YieldsFrom kept s (set s' >>= next) := h

theorem YieldsFrom.lift_bind {property : α → Prop} {outcome : Except Fault α} {next : α → StateT σ (Except Fault) β}
    (h : Yields property outcome) (hnext : ∀ a, property a → YieldsFrom kept s (next a)) :
    YieldsFrom kept s (liftM outcome >>= next) := by
  cases outcome with
  | ok a => exact hnext a h
  | error fault => exact h

namespace Keeps

theorem of_pure (a : α) : Keeps kept (pure a) := fun _ h => h

theorem of_throw {fault : Fault} (h : fault.IsReported) :
    Keeps kept (throw fault : StateT σ (Except Fault) α) := fun _ _ => h

theorem of_lift {outcome : Except Fault α} (h : Yields (fun _ => True) outcome) :
    Keeps kept (liftM outcome) := by
  intro s hs
  cases outcome with
  | ok a => exact hs
  | error fault => exact h

theorem of_modify {change : σ → σ} (h : ∀ s, kept s → kept (change s)) :
    Keeps kept (modify change) := fun s hs => h s hs

theorem bind (h : Keeps kept step) (hnext : ∀ a, Keeps kept (next a)) : Keeps kept (step >>= next) :=
  fun s hs => (h s hs).bind hnext

theorem map {f : α → β} (h : Keeps kept step) : Keeps kept (f <$> step) := by
  rw [map_eq_pure_bind]
  exact h.bind fun a => of_pure (f a)

theorem mapM {items : List α} {step : α → StateT σ (Except Fault) β}
    (h : ∀ item ∈ items, Keeps kept (step item)) : Keeps kept (items.mapM step) := by
  induction items with
  | nil => exact of_pure []
  | cons item rest ih =>
      rw [List.mapM_cons]
      obtain ⟨hitem, hrest⟩ := List.forall_mem_cons.mp h
      exact hitem.bind fun result => (ih hrest).bind fun results => of_pure (result :: results)

/-- A loop keeps what each of its rounds keeps. -/
theorem forIn {items : List α} {round : α → β → StateT σ (Except Fault) (ForInStep β)} {b : β}
    (h : ∀ item ∈ items, ∀ b, Keeps kept (round item b)) : Keeps kept (forIn items b round) := by
  induction items generalizing b with
  | nil =>
      rw [List.forIn_nil]
      exact of_pure b
  | cons item rest ih =>
      rw [List.forIn_cons]
      obtain ⟨hitem, hrest⟩ := List.forall_mem_cons.mp h
      refine (hitem b).bind fun result => ?_
      cases result with
      | done b => exact of_pure b
      | yield b => exact ih hrest

end Keeps

end Steps

end ApiScaffold.Yaml
