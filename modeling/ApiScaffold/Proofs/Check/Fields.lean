import Mathlib
import ApiScaffold.Proofs.Check.Accepted
import ApiScaffold.Schema.FieldMapping

/-! What the checks of choices, bounds and defaults guarantee: every field of an accepted configuration can
be resolved, whatever its type, and all its numbers are finite. -/

namespace ApiScaffold

namespace Check

theorem choiceList_ne_nil_of_clean {place : Place} {field : FieldSpec}
    (htype : field.type = .choice) (h : Clean (choicesOf place field)) :
    field.choiceList.isEmpty = false := by
  rw [choicesOf, if_pos htype] at h
  split at h
  · exact absurd h (not_clean_cons rfl)
  · rename_i hempty
    simpa using hempty

/-- A check of all fields that finds no error has found none in any of them. -/
theorem exists_clean_onField {check : Place → FieldSpec → Except Fault (List Finding)} {config : ApiConfig}
    {findings : List Finding} (h : onFieldsWithFaults check config = .ok findings) (hclean : Clean findings)
    {resource : ResourceSpec} (hresource : resource ∈ config.resources) {field : FieldSpec}
    (hfield : field ∈ resource.fields) :
    ∃ ofField, check (place resource field) field = .ok ofField ∧ Clean ofField := by
  obtain ⟨found, hfound, hflatten⟩ := Outcome.bind_eq_ok.mp h
  have heq : found.flatten.flatten = findings := Except.ok.inj hflatten
  obtain ⟨ofResource, hmem, hofResource⟩ := Outcome.exists_of_mem_mapM hfound hresource
  obtain ⟨ofField, hmemField, hofField⟩ := Outcome.exists_of_mem_mapM hofResource hfield
  refine ⟨ofField, hofField, fun finding hfinding => hclean finding ?_⟩
  rw [← heq]
  exact List.mem_flatten_of_mem (List.mem_flatten_of_mem hmem hmemField) hfinding

/-! ### Bounds -/

theorem isFinite_eq_ok {bound : Number} {finite : Bool} (h : isFinite bound = .ok finite) :
    bound.isFinite = finite := by
  cases bound with
  | int i =>
      rw [isFinite] at h
      split at h
      · exact Except.ok.inj h
      · cases h
  | real x => exact Except.ok.inj h

theorem isFinite_of_infiniteBounds {field : FieldSpec} (h : infiniteBounds field = .ok []) :
    ∀ bound ∈ field.bounds, bound.isFinite = true := by
  intro bound hbound
  rw [infiniteBounds] at h
  obtain ⟨checked, hchecked, hfilter⟩ := Outcome.bind_eq_ok.mp h
  obtain ⟨entry, hentry, hjudged⟩ := Outcome.exists_of_mem_mapM hchecked hbound
  obtain ⟨finite, hfinite, hpair⟩ := Outcome.bind_eq_ok.mp hjudged
  have hpair : (bound, finite) = entry := Except.ok.inj hpair
  have hall : (checked.filter fun entry => !entry.2).map (·.1) = [] := Except.ok.inj hfilter
  rw [List.map_eq_nil_iff, List.filter_eq_nil_iff] at hall
  have htrue := hall entry hentry
  rw [← hpair] at htrue
  rw [isFinite_eq_ok hfinite]
  simpa using htrue

/-- The findings for the lengths that are no counts. -/
def badLengths (place : Place) (field : FieldSpec) : List Finding :=
  if isLengthType field.type then
    (field.bounds.filter fun bound => !isCount bound).map (.badLengthBound place)
  else []

/-- What the check of bounds finds: nothing where there are none, those that are not finite, that the type
has no use for them, or else what is wrong with their order and with lengths. -/
inductive BoundsFound (place : Place) (field : FieldSpec) : List Finding → Prop where
  | nothing (hnone : field.bounds = []) : BoundsFound place field []
  | infinite {bounds : List Number} (hne : bounds ≠ []) :
      BoundsFound place field [.boundsNotFinite place bounds]
  | ignored (hne : field.bounds ≠ []) (hfinite : ∀ bound ∈ field.bounds, bound.isFinite = true)
      (hlength : isLengthType field.type = false) (hnumeric : isNumericType field.type = false) :
      BoundsFound place field [.boundsIgnored place field.type]
  | judged (hfinite : ∀ bound ∈ field.bounds, bound.isFinite = true)
      (hused : ¬(isLengthType field.type = false ∧ isNumericType field.type = false)) :
      BoundsFound place field (reversed place field ++ badLengths place field)

theorem boundsFound_of_boundsOf {place : Place} {field : FieldSpec} {findings : List Finding}
    (h : boundsOf place field = .ok findings) : BoundsFound place field findings := by
  rw [boundsOf] at h
  split at h
  · rename_i hnone
    obtain rfl := Except.ok.inj h
    exact .nothing (List.isEmpty_iff.mp hnone)
  · rename_i hsome
    obtain ⟨-, -, h⟩ := Outcome.bind_eq_ok.mp h
    obtain ⟨infinite, hinfinite, h⟩ := Outcome.bind_eq_ok.mp h
    split at h
    · rename_i hne
      obtain rfl := Except.ok.inj h
      exact .infinite (by simpa using hne)
    · rename_i hnil
      obtain rfl : infinite = [] := by simpa using hnil
      have hfinite := isFinite_of_infiniteBounds hinfinite
      split at h
      · rename_i hunused
        rw [Bool.and_eq_true, Bool.not_eq_true', Bool.not_eq_true'] at hunused
        obtain rfl := Except.ok.inj h
        exact .ignored (mt List.isEmpty_iff.mpr hsome) hfinite hunused.1 hunused.2
      · rename_i hused
        obtain rfl := Except.ok.inj h
        exact .judged hfinite (by simpa using hused)

/-- The check of bounds lets none pass that is not finite. -/
theorem bounds_finite_of_clean {place : Place} {field : FieldSpec} {findings : List Finding}
    (h : boundsOf place field = .ok findings) (hclean : Clean findings) :
    ∀ bound ∈ field.bounds, bound.isFinite = true := by
  cases boundsFound_of_boundsOf h with
  | nothing hnone =>
      rw [hnone]
      exact fun _ hbound => absurd hbound List.not_mem_nil
  | infinite hne => exact absurd hclean (not_clean_cons rfl)
  | ignored hne hfinite hlength hnumeric => exact hfinite
  | judged hfinite hused => exact hfinite

/-! ### Defaults -/

theorem not_clean_showing {default : Scalar} {finding : Finding} {findings : List Finding}
    (h : showing default finding = .ok findings) (herror : finding.isError = true) : ¬Clean findings := by
  rw [showing] at h
  split at h
  · rw [← Except.ok.inj h]
    exact not_clean_cons herror
  · cases h

/-- Of numbers, only integers suit integers and only finite ones suit numbers. -/
theorem isFinite_of_suits {type : FieldType} (htype : type ≠ .choice) {n : Number}
    (h : suits type (.number n) = .ok true) : n.isFinite = true := by
  cases type with
  | choice => exact absurd rfl htype
  | integer =>
      cases n with
      | int i => rfl
      | real x => cases h
  | number =>
      rw [suits] at h
      exact isFinite_eq_ok h
  | _ => cases n <;> cases h

/-- The check of defaults lets no number pass that is not finite. A choice without a list is not looked at,
but it is an error by itself. -/
theorem default_finite_of_clean {place : Place} {field : FieldSpec} {n : Number} {findings : List Finding}
    (hchoices : field.type = .choice → field.choiceList.isEmpty = false)
    (h : defaultOf place field (.number n) = .ok findings) (hclean : Clean findings) :
    n.isFinite = true := by
  rw [defaultOf] at h
  by_cases htype : field.type = .choice
  · rw [if_pos htype, hchoices htype] at h
    exact absurd hclean (not_clean_showing h rfl)
  · rw [if_neg htype] at h
    obtain ⟨fits, hfits, h⟩ := Outcome.bind_eq_ok.mp h
    cases fits with
    | true => exact isFinite_of_suits htype hfits
    | false => exact absurd hclean (not_clean_showing h rfl)

end Check

/-! ### Resolving fields -/

namespace Schema

theorem exists_lengthOf {bound : Number} (h : bound.isFinite = true) :
    ∃ n, lengthOf bound = .ok n := by
  cases bound with
  | int i => exact ⟨i, rfl⟩
  | real x =>
      cases x with
      | notANumber => cases h
      | infinity negative => cases h
      | finite => exact ⟨_, rfl⟩

theorem exists_constraintOf (make : Int → Constraint) (bound : Option Number)
    (h : ∀ n ∈ bound, n.isFinite = true) : ∃ constraints, constraintOf make bound = .ok constraints := by
  cases bound with
  | none => exact ⟨[], rfl⟩
  | some n =>
      obtain ⟨length, hlength⟩ := exists_lengthOf (h n rfl)
      exact ⟨[make length], by rw [constraintOf, hlength]; rfl⟩

theorem exists_boundConstraints {field : FieldSpec}
    (h : ∀ bound ∈ field.bounds, bound.isFinite = true) :
    ∃ constraints, boundConstraints field = .ok constraints := by
  rw [FieldSpec.bounds, List.forall_mem_append] at h
  obtain ⟨lower, hlower⟩ := exists_constraintOf .minLength field.lower
    fun n hn => h.1 n (by simpa using hn)
  obtain ⟨upper, hupper⟩ := exists_constraintOf .maxLength field.upper
    fun n hn => h.2 n (by simpa using hn)
  rw [boundConstraints]
  split
  · exact ⟨_, rfl⟩
  · exact ⟨_, rfl⟩
  · exact ⟨lower ++ upper, by rw [hlower, hupper]; rfl⟩

/-- A field can be resolved if it has the choices its type asks for and its bounds are finite. -/
theorem exists_mapField {field : FieldSpec}
    (hchoices : field.type = .choice → field.choiceList.isEmpty = false)
    (hbounds : ∀ bound ∈ field.bounds, bound.isFinite = true) :
    ∃ mapping, mapField field = .ok mapping := by
  obtain ⟨constraints, hconstraints⟩ := exists_boundConstraints hbounds
  rw [mapField]
  split
  · rename_i hmissing
    rw [Bool.and_eq_true, decide_eq_true_eq] at hmissing
    rw [hchoices hmissing.1] at hmissing
    exact absurd hmissing.2 Bool.false_ne_true
  · rw [hconstraints]
    exact ⟨_, rfl⟩

end Schema

namespace ApiConfig.Accepted

variable {config : ApiConfig} {resource : ResourceSpec} {field : FieldSpec}

theorem choiceList_ne_nil (h : config.Accepted) (hresource : resource ∈ config.resources)
    (hfield : field ∈ resource.fields) (htype : field.type = .choice) :
    field.choiceList.isEmpty = false := by
  have hfields := Check.clean_flatMap.mp h.choices resource hresource
  exact Check.choiceList_ne_nil_of_clean htype (Check.clean_flatMap.mp hfields field hfield)

theorem bounds_finite (h : config.Accepted) (hresource : resource ∈ config.resources)
    (hfield : field ∈ resource.fields) : ∀ bound ∈ field.bounds, bound.isFinite = true := by
  obtain ⟨findings, hfindings, hclean⟩ := h.bounds
  obtain ⟨ofField, hofField, hcleanField⟩ := Check.exists_clean_onField hfindings hclean hresource hfield
  exact Check.bounds_finite_of_clean hofField hcleanField

theorem default_finite (h : config.Accepted) (hresource : resource ∈ config.resources)
    (hfield : field ∈ resource.fields) {n : Number} (hdefault : field.declaredDefault = some (.number n)) :
    n.isFinite = true := by
  obtain ⟨findings, hfindings, hclean⟩ := h.defaults
  obtain ⟨ofField, hofField, hcleanField⟩ := Check.exists_clean_onField hfindings hclean hresource hfield
  rw [hdefault] at hofField
  exact Check.default_finite_of_clean (h.choiceList_ne_nil hresource hfield) hofField hcleanField

/-- Every field of an accepted configuration can be resolved. -/
theorem exists_mapField (h : config.Accepted) (hresource : resource ∈ config.resources)
    (hfield : field ∈ resource.fields) : ∃ mapping, Schema.mapField field = .ok mapping :=
  Schema.exists_mapField (h.choiceList_ne_nil hresource hfield) (h.bounds_finite hresource hfield)

end ApiConfig.Accepted

end ApiScaffold
