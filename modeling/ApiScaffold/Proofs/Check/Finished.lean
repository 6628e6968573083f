import Mathlib
import ApiScaffold.Check.Basic
import ApiScaffold.Proofs.Number.Double
import ApiScaffold.Proofs.Outcome

/-! What keeps the checks of a configuration from being finished: integers that are too large. A bound is
compared as a double, and so is the default of a number; any other default that does not suit its field
has to be shown in the report. -/

namespace ApiScaffold

/-- An integer has a magnitude below the limit. Doubles are not limited. -/
def Number.IsBelow (limit : Nat) : Number → Prop
  | .int i => i.natAbs < limit
  | .real _ => True

/-- A scalar is no integer that reaches the limit. -/
def Scalar.IsBelow (limit : Nat) : Scalar → Prop
  | .number n => n.IsBelow limit
  | _ => True

instance (limit : Nat) : (n : Number) → Decidable (n.IsBelow limit)
  | .int i => inferInstanceAs (Decidable (i.natAbs < limit))
  | .real _ => inferInstanceAs (Decidable True)

instance (limit : Nat) : (s : Scalar) → Decidable (s.IsBelow limit)
  | .number n => inferInstanceAs (Decidable (n.IsBelow limit))
  | .null | .bool _ | .text _ => inferInstanceAs (Decidable True)

namespace FieldSpec

/-- What integers have to be below as the default of a field: nothing if they suit it or if nothing is
asked of them, the bound of doubles for numbers, and otherwise the bound of what can be shown. -/
def defaultLimit? (field : FieldSpec) : Option Nat :=
  match field.type with
  | .integer => none
  | .number => some doubleBound
  | .choice => if field.choiceList.isEmpty then none else some integerTextBound
  | _ => some integerTextBound

/-- No integer of a field is too large to be judged. -/
structure Checkable (field : FieldSpec) : Prop where
  bounds : ∀ bound ∈ field.bounds, bound.IsBelow doubleBound
  default : ∀ default ∈ field.declaredDefault, ∀ limit ∈ field.defaultLimit?, default.IsBelow limit

instance (field : FieldSpec) : Decidable field.Checkable :=
  decidable_of_iff (_ ∧ _) ⟨fun ⟨bounds, default⟩ => ⟨bounds, default⟩,
    fun ⟨bounds, default⟩ => ⟨bounds, default⟩⟩

end FieldSpec

/-- No integer of a configuration is too large to be judged. -/
def ApiConfig.Checkable (config : ApiConfig) : Prop :=
  ∀ resource ∈ config.resources, ∀ field ∈ resource.fields, field.Checkable

instance (config : ApiConfig) : Decidable config.Checkable :=
  inferInstanceAs (Decidable (∀ resource ∈ config.resources, ∀ field ∈ resource.fields, _))

namespace Check

/-! ### Bounds -/

theorem exists_isFinite_iff {bound : Number} :
    (∃ finite, isFinite bound = .ok finite) ↔ bound.IsBelow doubleBound := by
  cases bound with
  | int i =>
      rw [isFinite, Number.IsBelow, ← Number.fitsDouble_iff]
      cases Number.fitsDouble i <;> simp
  | real x => exact iff_of_true ⟨x.isFinite, rfl⟩ trivial

theorem exists_infiniteBounds_iff {field : FieldSpec} :
    (∃ infinite, infiniteBounds field = .ok infinite) ↔
      ∀ bound ∈ field.bounds, bound.IsBelow doubleBound := by
  have hjudged : ∀ bound : Number, (∃ entry, (do return (bound, ← isFinite bound)) =
      (Except.ok entry : Except Fault (Number × Bool))) ↔ bound.IsBelow doubleBound := fun bound => by
    rw [← exists_isFinite_iff, ← @Outcome.exists_map_iff _ _ _ (isFinite bound) (bound, ·)]
    rfl
  rw [infiniteBounds, ← forall₂_congr fun bound _ => hjudged bound, ← Outcome.exists_mapM_iff]
  exact Outcome.exists_map_iff

theorem exists_boundsOf_iff {place : Place} {field : FieldSpec} :
    (∃ findings, boundsOf place field = .ok findings) ↔
      ∀ bound ∈ field.bounds, bound.IsBelow doubleBound := by
  rw [← exists_infiniteBounds_iff, boundsOf]
  split
  · rename_i hnone
    refine iff_of_true ⟨[], rfl⟩ (exists_infiniteBounds_iff.mpr fun bound hbound => ?_)
    rw [List.isEmpty_iff.mp hnone] at hbound
    cases hbound
  · cases infiniteBounds field with
    | error fault => exact iff_of_false (fun ⟨_, h⟩ => nomatch h) (fun ⟨_, h⟩ => nomatch h)
    | ok infinite =>
        refine iff_of_true ?_ ⟨infinite, rfl⟩
        dsimp only [bind, Except.bind, pure, Except.pure]
        split
        · exact ⟨_, rfl⟩
        · split
          · exact ⟨_, rfl⟩
          · exact ⟨_, rfl⟩

/-! ### Defaults -/

theorem exists_showing_iff {default : Scalar} {finding : Finding} :
    (∃ findings, showing default finding = .ok findings) ↔ default.IsBelow integerTextBound := by
  have hshown : default.hasText = true ↔ default.IsBelow integerTextBound := by
    cases default with
    | number n =>
        cases n with
        | int i => rw [Scalar.hasText, Number.hasText, hasIntegerText, decide_eq_true_eq, Scalar.IsBelow,
            Number.IsBelow]
        | real x => exact iff_of_true rfl trivial
    | _ => exact iff_of_true rfl trivial
  rw [← hshown, showing]
  cases default.hasText <;> simp

/-- Whether a default suits a type is known, unless it is a large integer for a number. -/
theorem exists_suits {type : FieldType} {default : Scalar}
    (h : type = .number → default.IsBelow doubleBound) : ∃ fits, suits type default = .ok fits := by
  by_cases hnumber : type = .number
  · subst hnumber
    cases default with
    | number n =>
        rw [suits]
        exact exists_isFinite_iff.mpr (h rfl)
    | _ => exact ⟨_, rfl⟩
  · cases default with
    | number n => cases type <;> cases n <;> first | exact ⟨_, rfl⟩ | exact absurd rfl hnumber
    | _ => cases type <;> exact ⟨_, rfl⟩

/-- The default of a choice is shown if it is not chosen from the list. -/
theorem exists_defaultOf_choice {place : Place} {field : FieldSpec} {default : Scalar}
    (htype : field.type = .choice) :
    (∃ findings, defaultOf place field default = .ok findings) ↔
      ∀ limit ∈ field.defaultLimit?, default.IsBelow limit := by
  rw [defaultOf, if_pos htype, FieldSpec.defaultLimit?, htype]
  cases field.choiceList.isEmpty with
  | true => exact iff_of_true ⟨[], rfl⟩ (fun _ h => nomatch h)
  | false =>
      have hlimit : (∀ limit ∈ some integerTextBound, default.IsBelow limit) ↔
          default.IsBelow integerTextBound := by simp
      simp only [Bool.false_or, Bool.false_eq_true, if_false]
      rw [hlimit]
      split
      · rename_i hsuits
        refine iff_of_true ⟨[], rfl⟩ ?_
        cases default with
        | number n => cases hsuits
        | _ => trivial
      · exact exists_showing_iff

theorem exists_defaultOf_of_suits {place : Place} {field : FieldSpec} {default : Scalar} {fits : Bool}
    (htype : field.type ≠ .choice) (h : suits field.type default = .ok fits) :
    (∃ findings, defaultOf place field default = .ok findings) ↔
      (fits = false → default.IsBelow integerTextBound) := by
  rw [defaultOf, if_neg htype, h]
  cases fits with
  | true => exact iff_of_true ⟨[], rfl⟩ nofun
  | false =>
      rw [← @exists_showing_iff _ (.defaultUnfit place default field.type)]
      exact ⟨fun h _ => h, fun h => h rfl⟩

theorem exists_defaultOf_integer {place : Place} {field : FieldSpec} {i : Int}
    (htype : field.type ≠ .choice) :
    (∃ findings, defaultOf place field (.number (.int i)) = .ok findings) ↔
      ∀ limit ∈ field.defaultLimit?, (Scalar.number (.int i)).IsBelow limit := by
  rw [FieldSpec.defaultLimit?]
  -- Integers suit numbers, if they have a double, and integers; everywhere else they are shown.
  cases hcase : field.type with
  | number =>
      simp only [Option.mem_def, Option.some.injEq, forall_eq', Scalar.IsBelow]
      rw [← exists_isFinite_iff]
      constructor
      · rintro ⟨findings, h⟩
        rw [defaultOf, if_neg htype, hcase, suits] at h
        exact (Outcome.bind_eq_ok.mp h).imp fun _ => And.left
      · intro h
        have hfits : suits field.type (.number (.int i)) = .ok true := by
          rw [hcase, suits, isFinite, (Number.fitsDouble_iff i).mpr (exists_isFinite_iff.mp h), if_pos rfl]
        exact (exists_defaultOf_of_suits htype hfits).mpr nofun
  | integer =>
      have hfits : suits field.type (.number (.int i)) = .ok true := by rw [hcase, suits]
      exact iff_of_true ((exists_defaultOf_of_suits htype hfits).mpr nofun) nofun
  | choice => exact absurd hcase htype
  | _ =>
      have hfits : suits field.type (.number (.int i)) = .ok false := by
        rw [hcase]
        rfl
      rw [exists_defaultOf_of_suits htype hfits]
      simp

theorem exists_defaultOf_iff {place : Place} {field : FieldSpec} {default : Scalar} :
    (∃ findings, defaultOf place field default = .ok findings) ↔
      ∀ limit ∈ field.defaultLimit?, default.IsBelow limit := by
  by_cases hchoice : field.type = .choice
  · exact exists_defaultOf_choice hchoice
  · by_cases hinteger : ∃ i, default = .number (.int i)
    · obtain ⟨i, rfl⟩ := hinteger
      exact exists_defaultOf_integer hchoice
    · have hbelow : ∀ limit, default.IsBelow limit := by
        intro limit
        cases default with
        | number n =>
            cases n with
            | int i => exact absurd ⟨i, rfl⟩ hinteger
            | real x => trivial
        | _ => trivial
      obtain ⟨fits, hfits⟩ := exists_suits fun _ => hbelow doubleBound
      rw [exists_defaultOf_of_suits hchoice hfits]
      exact iff_of_true (fun _ => hbelow integerTextBound) (fun limit _ => hbelow limit)

/-! ### All checks -/

theorem exists_onFieldsWithFaults_iff {check : Place → FieldSpec → Except Fault (List Finding)}
    {config : ApiConfig} :
    (∃ findings, onFieldsWithFaults check config = .ok findings) ↔
      ∀ resource ∈ config.resources, ∀ field ∈ resource.fields,
        ∃ findings, check (place resource field) field = .ok findings := by
  rw [← forall₂_congr fun resource _ => Outcome.exists_mapM_iff, ← Outcome.exists_mapM_iff]
  exact Outcome.exists_map_iff

theorem exists_bounds_iff {config : ApiConfig} :
    (∃ findings, bounds config = .ok findings) ↔
      ∀ resource ∈ config.resources, ∀ field ∈ resource.fields,
        ∀ bound ∈ field.bounds, bound.IsBelow doubleBound := by
  rw [bounds, exists_onFieldsWithFaults_iff]
  exact forall₄_congr fun _ _ _ _ => exists_boundsOf_iff

theorem exists_defaults_iff {config : ApiConfig} :
    (∃ findings, defaults config = .ok findings) ↔
      ∀ resource ∈ config.resources, ∀ field ∈ resource.fields,
        ∀ default ∈ field.declaredDefault, ∀ limit ∈ field.defaultLimit?, default.IsBelow limit := by
  rw [defaults, exists_onFieldsWithFaults_iff]
  refine forall₄_congr fun resource _ field _ => ?_
  cases field.declaredDefault with
  | none => exact iff_of_true ⟨[], rfl⟩ (fun _ h => nomatch h)
  | some default => simp only [Option.mem_def, Option.some.injEq, forall_eq', exists_defaultOf_iff]

end Check

/-- The checks of a configuration are finished, whatever they find, exactly if no integer is too large. -/
theorem ApiConfig.exists_report_iff {config : ApiConfig} :
    (∃ report, config.report = .ok report) ↔ config.Checkable := by
  have hall : (∀ topic ∈ Check.Topic.all, ∃ found, topic.findings config = .ok found) ↔
      (∃ found, Check.bounds config = .ok found) ∧ ∃ found, Check.defaults config = .ok found := by
    simp [Check.Topic.all, Check.Topic.findings]
  rw [report, Outcome.exists_map_iff, findings, Check.findingsOn, Outcome.exists_map_iff,
    Outcome.exists_mapM_iff, hall, Check.exists_bounds_iff, Check.exists_defaults_iff]
  constructor
  · rintro ⟨hbounds, hdefaults⟩ resource hresource field hfield
    exact ⟨hbounds resource hresource field hfield, hdefaults resource hresource field hfield⟩
  · intro h
    exact ⟨fun resource hresource field hfield => (h resource hresource field hfield).bounds,
      fun resource hresource field hfield => (h resource hresource field hfield).default⟩

end ApiScaffold
