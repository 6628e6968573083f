import Mathlib
import ApiScaffold.Proofs.Migration.Table
import ApiScaffold.Proofs.Naming.Words
import ApiScaffold.Proofs.Number.Range
import ApiScaffold.Proofs.Schema.Mapping
import ApiScaffold.Schema.Module

/-! When there is a schema module for a resource whose fields can be resolved: exactly if its module has a
name, and the defaults and bounds that its models state can be written. -/

namespace ApiScaffold

/-- What clients write is stored as declared. -/
theorem ResourceSpec.clientFields_subset (resource : ResourceSpec) :
    resource.clientFields ⊆ resource.storedFields := by
  intro field hfield
  obtain ⟨hmem, hmanaged⟩ := List.mem_filter.mp hfield
  refine List.mem_filter.mpr ⟨hmem, ?_⟩
  rw [Bool.not_eq_true', List.contains_eq_mem, decide_eq_false_iff_not] at hmanaged ⊢
  exact fun hname => hmanaged (resource.syntheticNames_subset hname)

theorem Scalar.exists_literal_iff {s : Scalar} :
    (∃ text, s.literal = .ok text) ↔ s.hasText = true := by
  cases s with
  | number n =>
      rw [literal, hasText]
      cases n.hasText <;> simp
  | _ => exact iff_of_true ⟨_, rfl⟩ rfl

namespace Schema

/-! ### Attributes -/

/-- The scalars that the text of a setting states. -/
def Setting.scalars : Setting → List Scalar
  | .unset => []
  | .plain default => [default]
  | .field default constraints _ => default.toList ++ constraints.map Constraint.value

theorem exists_argumentText_iff {name : String} {value : Scalar} :
    (∃ text, argumentText name value = .ok text) ↔ value.hasText = true :=
  Outcome.exists_map_iff.trans Scalar.exists_literal_iff

theorem exists_settingArguments_iff {default : Option Scalar} {constraints : List Constraint}
    {description : Option String} :
    (∃ arguments, settingArguments default constraints description = .ok arguments) ↔
      ∀ s ∈ default.toList ++ constraints.map Constraint.value, s.hasText = true := by
  have hfirst : (∃ arguments, default.toList.mapM (argumentText "default") = .ok arguments) ↔
      ∀ s ∈ default.toList, s.hasText = true := by
    rw [Outcome.exists_mapM_iff]
    exact forall₂_congr fun _ _ => exists_argumentText_iff
  have hmiddle : (∃ arguments, constraintArguments constraints = .ok arguments) ↔
      ∀ s ∈ constraints.map Constraint.value, s.hasText = true := by
    rw [constraintArguments, Outcome.exists_mapM_iff, List.forall_mem_map]
    exact forall₂_congr fun _ _ => exists_argumentText_iff
  rw [List.forall_mem_append, ← hfirst, ← hmiddle]
  simp only [settingArguments, Outcome.bind_eq_ok]
  constructor
  · rintro ⟨-, first, hfirst, middle, hmiddle, -⟩
    exact ⟨⟨first, hfirst⟩, ⟨middle, hmiddle⟩⟩
  · rintro ⟨⟨first, hfirst⟩, ⟨middle, hmiddle⟩⟩
    exact ⟨_, first, hfirst, middle, hmiddle, rfl⟩

theorem Setting.exists_text_iff {setting : Setting} :
    (∃ text, setting.text = .ok text) ↔ ∀ s ∈ setting.scalars, s.hasText = true := by
  cases setting with
  | unset => exact iff_of_true ⟨"", rfl⟩ (by simp [scalars])
  | plain default =>
      rw [text, Outcome.exists_map_iff, Scalar.exists_literal_iff, scalars, List.forall_mem_singleton]
  | field default constraints description =>
      rw [text, Outcome.exists_map_iff, exists_settingArguments_iff, scalars]

theorem Model.exists_lines_iff {model : Model} :
    (∃ lines, model.lines = .ok lines) ↔
      ∀ a ∈ model.attributes, ∀ s ∈ a.setting.scalars, s.hasText = true := by
  have hattributes : (∃ texts, model.attributes.mapM Attribute.line = .ok texts) ↔
      ∀ a ∈ model.attributes, ∀ s ∈ a.setting.scalars, s.hasText = true := by
    rw [Outcome.exists_mapM_iff]
    exact forall₂_congr fun _ _ => Outcome.exists_map_iff.trans Setting.exists_text_iff
  rw [← hattributes]
  simp only [lines, Outcome.bind_eq_ok]
  constructor
  · rintro ⟨-, texts, htexts, -⟩
    exact ⟨texts, htexts⟩
  · rintro ⟨texts, htexts⟩
    exact ⟨_, texts, htexts, rfl⟩

/-! ### Fields -/

section Fields

variable {resource : ResourceSpec} {resolved : Mappings}

/-- An attribute states its default and its constraints. -/
theorem attributeOf_scalars (field : FieldSpec) (default : Option Scalar) :
    (attributeOf resolved field default).setting.scalars =
      default.toList ++ (constraintsIn resolved field.name).map Constraint.value := by
  cases hplain : (constraintsIn resolved field.name).isEmpty && (someText field.description).isNone with
  | true =>
      rw [Bool.and_eq_true, List.isEmpty_iff] at hplain
      cases default <;> simp [attributeOf, hplain, Setting.scalars]
  | false => cases default <;> simp [attributeOf, hplain, Setting.scalars]

theorem declaredAttribute_scalars (field : FieldSpec) :
    (declaredAttribute resolved field).setting.scalars =
      (if field.required then [] else [field.default]) ++
        (constraintsIn resolved field.name).map Constraint.value := by
  rw [declaredAttribute, attributeOf_scalars]
  cases field.required <;> rfl

/-- The scalars that the parameters of every list query state. -/
def queryScalars : List Scalar := queryAttributes.flatMap fun a => a.setting.scalars

/-- What the models of a resource state: nothing, what every list query does, the defaults of fields that may
be left out, and the constraints of fields. -/
inductive StatesScalar (resource : ResourceSpec) (resolved : Mappings) : Scalar → Prop where
  | nothing : StatesScalar resource resolved .null
  | fixed {s : Scalar} (h : s ∈ queryScalars) : StatesScalar resource resolved s
  | default {field : FieldSpec} (hfield : field ∈ resource.storedFields) (h : field.required = false) :
    StatesScalar resource resolved field.default
  | constraint {field : FieldSpec} (hfield : field ∈ resource.storedFields) {c : Constraint}
    (hc : c ∈ constraintsIn resolved field.name) : StatesScalar resource resolved c.value

theorem statesScalar_declaredAttribute {field : FieldSpec} (hfield : field ∈ resource.storedFields) :
    ∀ s ∈ (declaredAttribute resolved field).setting.scalars, StatesScalar resource resolved s := by
  rw [declaredAttribute_scalars, List.forall_mem_append, List.forall_mem_map]
  refine ⟨fun s hs => ?_, fun c hc => .constraint hfield hc⟩
  split at hs
  · cases hs
  · rename_i hrequired
    rw [List.mem_singleton.mp hs]
    exact .default hfield (Bool.eq_false_of_not_eq_true hrequired)

theorem statesScalar_updateAttribute {field : FieldSpec} (hfield : field ∈ resource.storedFields) :
    ∀ s ∈ (updateAttribute resolved field).setting.scalars, StatesScalar resource resolved s := by
  rw [updateAttribute, attributeOf_scalars, List.forall_mem_append, List.forall_mem_map]
  refine ⟨fun s hs => ?_, fun c hc => .constraint hfield hc⟩
  rw [Option.toList_some, List.mem_singleton] at hs
  exact hs ▸ .nothing

theorem statesScalar_of_mem_models {model : Model} (hmodel : model ∈ models resource resolved) {a : Attribute}
    (ha : a ∈ model.attributes) : ∀ s ∈ a.setting.scalars, StatesScalar resource resolved s := by
  simp only [models, List.mem_cons, List.not_mem_nil, or_false] at hmodel
  rcases hmodel with rfl | rfl | rfl | rfl
  · simp only [recordModel, List.cons_append, List.mem_cons, List.mem_append, List.mem_map] at ha
    rcases ha with rfl | ⟨field, hfield, rfl⟩ | ⟨name, -, rfl⟩
    · exact List.forall_mem_nil _
    · exact statesScalar_declaredAttribute hfield
    · exact List.forall_mem_nil _
  · obtain ⟨field, hfield, rfl⟩ := List.mem_map.mp ha
    exact statesScalar_declaredAttribute (resource.clientFields_subset hfield)
  · obtain ⟨field, hfield, rfl⟩ := List.mem_map.mp ha
    exact statesScalar_updateAttribute (resource.clientFields_subset hfield)
  · intro s hs
    rcases List.mem_append.mp ha with hmem | hmem
    · exact .fixed (List.mem_flatMap_of_mem hmem hs)
    · obtain ⟨field, -, rfl⟩ := List.mem_map.mp hmem
      rw [Setting.scalars, List.mem_singleton] at hs
      exact hs ▸ .nothing

/-- What the modules of a resource state about a field can be written. -/
def Stated (resolved : Mappings) (field : FieldSpec) : Prop :=
  (field.required = false → field.default.hasText = true) ∧
    ∀ c ∈ constraintsIn resolved field.name, c.value.hasText = true

theorem declaredAttribute_stated {field : FieldSpec} :
    (∀ s ∈ (declaredAttribute resolved field).setting.scalars, s.hasText = true) ↔
      Stated resolved field := by
  rw [declaredAttribute_scalars, List.forall_mem_append, List.forall_mem_map, Stated]
  cases field.required <;> simp

/-- Records hold all that the other models state, so they decide whether the module can be written. -/
theorem exists_moduleText_iff :
    (∃ text, moduleText resource resolved = .ok text) ↔
      ∀ field ∈ resource.storedFields, Stated resolved field := by
  have hlines : (∃ text, moduleText resource resolved = .ok text) ↔
      ∀ model ∈ models resource resolved, ∀ a ∈ model.attributes, ∀ s ∈ a.setting.scalars,
        s.hasText = true := by
    rw [← forall₂_congr fun model _ => Model.exists_lines_iff, ← Outcome.exists_mapM_iff]
    exact Outcome.exists_map_iff
  rw [hlines, models]
  constructor
  · intro h field hfield
    have hrecord := h (recordModel resource resolved) List.mem_cons_self
    refine declaredAttribute_stated.mp (hrecord _ ?_)
    exact List.mem_append_left _ (List.mem_cons_of_mem _ (List.mem_map_of_mem hfield))
  · intro h model hmodel a ha s hs
    have hfixed : ∀ s ∈ queryScalars, s.hasText = true := by decide +kernel
    cases statesScalar_of_mem_models hmodel ha s hs with
    | nothing => rfl
    | fixed hs => exact hfixed s hs
    | default hfield hrequired => exact (h _ hfield).1 hrequired
    | constraint hfield hc => exact (h _ hfield).2 _ hc

end Fields

/-! ### Resources -/

/-- The constraints that the bounds of a field make can be written. -/
def BoundsWritable (field : FieldSpec) : Prop :=
  ∀ constraints ∈ (boundConstraints field).toOption, ∀ c ∈ constraints, c.value.hasText = true

instance (field : FieldSpec) : Decidable (BoundsWritable field) :=
  inferInstanceAs (Decidable (∀ constraints ∈ (boundConstraints field).toOption, _))

/-- Bounds that are doubles, or integers that were compared as doubles, can be written. -/
theorem boundsWritable_of_inRange {field : FieldSpec}
    (hbelow : ∀ bound ∈ field.bounds, bound.IsBelow doubleBound)
    (hrange : ∀ bound ∈ field.bounds, bound.InRange) : BoundsWritable field := by
  intro constraints hconstraints c hc
  obtain ⟨bound, hbound, hvalue | ⟨length, hlength, hvalue⟩⟩ :=
    value_of_mem_boundConstraints (Outcome.toOption_eq_some.mp hconstraints) hc
  · rw [hvalue]
    exact (hbelow bound hbound).hasText
  · rw [hvalue, Scalar.hasText, Number.hasText]
    exact (hbelow bound hbound).hasIntegerText_truncate (hrange bound hbound)
      (Outcome.mapError_eq_ok.mp hlength)

section Resource

variable {resource : ResourceSpec} {resolved : Mappings}

theorem mapField_constraints {field : FieldSpec} {mapping : FieldMapping}
    (h : mapField field = .ok mapping) :
    (∀ c ∈ mapping.constraints, c.value.hasText = true) ↔ BoundsWritable field := by
  obtain ⟨bounds, hbounds, hconstraints⟩ := mapField_constraints_eq h
  have hpattern : ∀ c ∈ (typeEntry field.type).pattern.toList.map Constraint.pattern,
      c.value.hasText = true := by
    intro c hc
    obtain ⟨text, -, rfl⟩ := List.mem_map.mp hc
    rfl
  simp only [hconstraints, List.forall_mem_append, BoundsWritable, hbounds, Except.toOption, Option.mem_def,
    Option.some.injEq, forall_eq']
  exact and_iff_left hpattern

theorem stated_iff (hnodup : resource.fieldNames.Nodup) (h : mappings resource = .ok resolved)
    {field : FieldSpec} (hfield : field ∈ resource.fields) :
    Stated resolved field ↔
      (field.required = false → field.default.hasText = true) ∧ BoundsWritable field := by
  obtain ⟨mapping, hlookup, hmapping⟩ := lookup_mappings hnodup h hfield
  rw [Stated, constraintsIn, hlookup, Option.map_some, Option.getD_some,
    mapField_constraints hmapping]

/-- Where the fields can be resolved, there is a schema module exactly if it has a name, and what it
states can be written: the defaults of fields that may be left out, and the bounds. -/
theorem exists_artifact_iff (hnodup : resource.fieldNames.Nodup)
    (hmapped : ∀ field ∈ resource.fields, ∃ mapping, mapField field = .ok mapping) :
    (∃ made, artifact resource = .ok made) ↔
      Naming.moduleName resource.name ≠ "" ∧ ∀ field ∈ resource.storedFields,
        (field.required = false → field.default.hasText = true) ∧ BoundsWritable field := by
  obtain ⟨resolved, hresolved⟩ := exists_mappings hmapped
  have hstated : (∃ text, moduleText resource resolved = .ok text) ↔
      ∀ field ∈ resource.storedFields,
        (field.required = false → field.default.hasText = true) ∧ BoundsWritable field := by
    rw [exists_moduleText_iff]
    exact forall₂_congr fun field hfield =>
      stated_iff hnodup hresolved (ResourceSpec.mem_storedFields.mp hfield).1
  rw [← hstated]
  simp only [artifact, hresolved, Outcome.bind_eq_ok, Outcome.mapError_eq_ok, named]
  constructor
  · rintro ⟨made, resolved', hsame, text, htext, hnamed⟩
    obtain rfl := Except.ok.inj hsame
    refine ⟨fun hempty => ?_, text, htext⟩
    rw [hempty] at hnamed
    cases hnamed
  · rintro ⟨hname, text, htext⟩
    refine ⟨_, resolved, rfl, text, htext, if_neg ?_⟩
    rwa [String.isEmpty_iff]

/-- A schema module goes to the place of its resource and is described by it. -/
theorem artifact_made {made : Artifact} (h : artifact resource = .ok made) :
    made.path = some (Naming.schemaPath resource.name) ∧
      made.detail = .schema resource.name (Naming.schemaNames resource.name).toList := by
  unfold artifact at h
  obtain ⟨mappings, -, h⟩ := Outcome.bind_eq_ok.mp h
  obtain ⟨content, -, h⟩ := Outcome.bind_eq_ok.mp h
  unfold named at h
  split at h
  · cases h
  · rw [← Except.ok.inj h]
    exact ⟨rfl, rfl⟩

end Resource

end Schema

end ApiScaffold
