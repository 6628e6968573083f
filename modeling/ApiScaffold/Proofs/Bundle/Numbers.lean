import Mathlib
import ApiScaffold.Proofs.Check.Fields
import ApiScaffold.Proofs.Check.Names
import ApiScaffold.Proofs.Number.Shortest
import ApiScaffold.Proofs.OpenApi.Document
import ApiScaffold.Sql.Definition

/-! The numbers in generated texts. The checks let no number into a configuration that is not finite, neither
as a bound nor as a default, and models, tables and the API document state no others. -/

namespace ApiScaffold

open Numeral

/-- Whether a scalar is finite, if it is a number. -/
def Scalar.isFinite : Scalar → Bool
  | .number n => n.isFinite
  | _ => true

/-! ### Numbers of fields -/

namespace Schema

/-- Lengths are integers, and other bounds are stated as they are declared. -/
theorem boundConstraints_finite {field : FieldSpec}
    (hbounds : ∀ bound ∈ field.bounds, bound.isFinite = true) {constraints : List Constraint}
    (h : boundConstraints field = .ok constraints) :
    ∀ c ∈ constraints, ∀ n, c.value = .number n → n.isFinite = true := by
  intro c hc n hn
  obtain ⟨bound, hbound, hvalue | ⟨length, -, hvalue⟩⟩ := value_of_mem_boundConstraints h hc
  · obtain rfl := Scalar.number.inj (hvalue.symm.trans hn)
    exact hbounds bound hbound
  · obtain rfl := Scalar.number.inj (hvalue.symm.trans hn)
    rfl

end Schema

section Accepted

variable {config : ApiConfig} {resource : ResourceSpec} {field : FieldSpec}

/-- The numbers that are stated of a field of an accepted configuration are finite. -/
theorem ApiConfig.Accepted.fieldNumbers (h : config.Accepted) (hresource : resource ∈ config.resources)
    (hfield : field ∈ resource.fields) : OpenApi.FieldNumbers (fun n => n.isFinite = true) field where
  default := fun _ hn => h.default_finite hresource hfield hn
  bounds := fun _ hconstraints =>
    Schema.boundConstraints_finite (h.bounds_finite hresource hfield) hconstraints

/-! ### Models -/

theorem FieldSpec.declaredDefault_of_default {n : Number} (h : field.default = .number n) :
    field.declaredDefault = some (.number n) := by
  rw [FieldSpec.default] at h
  cases hdeclared : field.declaredDefault with
  | none =>
      rw [hdeclared] at h
      cases h
  | some default =>
      rw [hdeclared] at h
      exact congrArg some h

theorem ApiConfig.Accepted.isFinite_of_statesScalar (h : config.Accepted)
    (hresource : resource ∈ config.resources) {resolved : Schema.Mappings}
    (hresolved : Schema.mappings resource = .ok resolved) {n : Number}
    (hn : Schema.StatesScalar resource resolved (.number n)) : n.isFinite = true := by
  generalize hs : Scalar.number n = s at hn
  cases hn with
  | nothing => cases hs
  | fixed hmem =>
      have hfixed : ∀ s ∈ Schema.queryScalars, s.isFinite = true := by decide +kernel
      exact hfixed _ (hs ▸ hmem)
  | default hfield hrequired =>
      have hdeclared := FieldSpec.declaredDefault_of_default hs.symm
      exact h.default_finite hresource (ResourceSpec.mem_storedFields.mp hfield).1 hdeclared
  | constraint hfield hc =>
      have hmem := (ResourceSpec.mem_storedFields.mp hfield).1
      obtain ⟨mapping, hlookup, hmapping⟩ :=
        Schema.lookup_mappings (h.fieldNames_nodup hresource) hresolved hmem
      obtain ⟨bounds, hbounds, hconstraints⟩ := Schema.mapField_constraints_eq hmapping
      rw [Schema.constraintsIn, hlookup, Option.map_some, Option.getD_some, hconstraints,
        List.mem_append] at hc
      rcases hc with hbound | hpattern
      · exact (h.fieldNumbers hresource hmem).bounds bounds hbounds _ hbound n hs.symm
      · obtain ⟨text, -, rfl⟩ := List.mem_map.mp hpattern
        cases hs

end Accepted

/-! ### Columns -/

namespace Sql

/-- What a default may say: a text, that there is nothing, or a finite number, which may be in parentheses. -/
inductive ColumnDefault.Sound : ColumnDefault → Prop where
  | text (s : String) : Sound (.text s)
  | nothing : Sound (.expression "NULL")
  | number {source : String} (n : Number) (hfinite : n.isFinite = true) (hspells : Spells IsSql n.text)
    (hwritten : (expression source).written = n.text ∨ (expression source).written = "(" ++ n.text ++ ")") :
    Sound (.expression source)

theorem written_expression (source : String) :
    (ColumnDefault.expression source).written = source ∨
      (ColumnDefault.expression source).written = "(" ++ source ++ ")" := by
  rw [ColumnDefault.written]
  split
  · exact Or.inr rfl
  · exact Or.inl rfl

theorem ColumnDefault.sound_text {n : Number} (h : n.isFinite = true) :
    (ColumnDefault.expression n.text).Sound :=
  .number n h ((Number.spells_text_iff n).2.2.mpr h) (written_expression n.text)

theorem sound_of_columnDefault {s : Scalar} (hfinite : ∀ n, s = .number n → n.isFinite = true)
    {default : ColumnDefault} (h : columnDefault s = .ok default) : default.Sound := by
  cases s with
  | null => exact Except.ok.inj h ▸ .nothing
  | text s => exact Except.ok.inj h ▸ .text s
  | bool b =>
      rw [← Except.ok.inj h]
      cases b with
      | true => exact ColumnDefault.sound_text (n := .int 1) rfl
      | false => exact ColumnDefault.sound_text (n := .int 0) rfl
  | number n =>
      rw [columnDefault] at h
      split at h
      · exact Except.ok.inj h ▸ ColumnDefault.sound_text (hfinite n rfl)
      · cases h

end Sql

theorem ApiConfig.Accepted.sound_default {config : ApiConfig} (h : config.Accepted) {resource : ResourceSpec}
    (hresource : resource ∈ config.resources) {withRelations : Bool} {table : Sql.Table}
    (htable : Migration.tableOf withRelations resource = .ok table) :
    ∀ column ∈ table.columns, ∀ default ∈ column.default, default.Sound := by
  obtain ⟨columns, hcolumns, rfl⟩ := Migration.tableOf_eq_ok.mp htable
  intro column hcolumn default hdefault
  rw [List.cons_append, List.mem_cons, List.mem_append] at hcolumn
  rcases hcolumn with rfl | hfield | htime
  · cases hdefault
  · obtain ⟨field, hstored, hmade⟩ := Outcome.exists_of_mem_results hcolumns hfield
    obtain ⟨mapping, written, -, hwritten, rfl⟩ := Migration.fieldColumn_eq_ok.mp hmade
    have hmem := (ResourceSpec.mem_storedFields.mp hstored).1
    cases hdeclared : field.declaredDefault with
    | none =>
        rw [hdeclared] at hwritten
        obtain rfl := Except.ok.inj hwritten
        cases hdefault
    | some s =>
        rw [hdeclared] at hwritten
        obtain ⟨source, hsource, rfl⟩ := Outcome.map_eq_ok.mp hwritten
        obtain rfl := Option.some.inj hdefault
        refine Sql.sound_of_columnDefault (fun n hn => ?_) hsource
        exact h.default_finite hresource hmem (hn ▸ hdeclared)
  · obtain ⟨name, -, rfl⟩ := List.mem_map.mp htime
    cases hdefault

/-! ### Generated texts -/

/-- The numbers in the generated texts of a configuration are finite, and each is written as a numeral of the
language of its text. A table is that of its resource, whether it is built alone or in a database. -/
structure ApiConfig.WritesNumerals (config : ApiConfig) : Prop where
  models : ∀ resource ∈ config.resources, ∃ resolved, Schema.mappings resource = .ok resolved ∧
    ∀ model ∈ Schema.models resource resolved, ∀ a ∈ model.attributes, ∀ n,
      .number n ∈ a.setting.scalars →
        n.isFinite = true ∧ ∀ text, (Scalar.number n).literal = .ok text → Spells IsCode text
  tables : ∀ resource ∈ config.resources, ∀ withRelations table,
    Migration.tableOf withRelations resource = .ok table →
      ∀ column ∈ table.columns, ∀ default ∈ column.default, default.Sound
  document : ∀ serverUrl, ∃ document, OpenApi.document config serverUrl = .ok document ∧
    ∀ n ∈ document.numbers, n.isFinite = true ∧ Spells IsJson (Json.numberText n)

/-- **Only finite numbers reach a generated text.** Where a configuration is accepted, its models, its tables
and its documents state finite numbers only, and these are numerals of code, of statements and of
documents. -/
theorem accepted_writes_numerals {config : ApiConfig} (h : config.Accepted) : config.WritesNumerals where
  models := by
    intro resource hresource
    obtain ⟨resolved, hresolved⟩ :=
      Schema.exists_mappings fun field hfield => h.exists_mapField hresource hfield
    refine ⟨resolved, hresolved, fun model hmodel a ha n hn => ?_⟩
    have hfinite := h.isFinite_of_statesScalar hresource hresolved
      (Schema.statesScalar_of_mem_models hmodel ha _ hn)
    refine ⟨hfinite, fun text htext => ?_⟩
    rw [Scalar.literal] at htext
    split at htext
    · exact Except.ok.inj htext ▸ (Number.spells_text_iff n).2.1.mpr hfinite
    · cases htext
  tables := fun resource hresource withRelations table htable => h.sound_default hresource htable
  document := by
    intro serverUrl
    have hfixed : ∀ n ∈ OpenApi.fixedNumbers, n.isFinite = true := by decide +kernel
    obtain ⟨schemas, hschemas⟩ :=
      OpenApi.exists_schemas fun resource hresource field hfield => h.exists_mapField hresource hfield
    refine ⟨_, OpenApi.document_eq_ok.mpr ⟨schemas, hschemas, rfl⟩, fun n hn => ?_⟩
    have hfinite := OpenApi.allNumbers_documentOf hfixed (fun resource hresource field hfield =>
      h.fieldNumbers hresource (ResourceSpec.mem_storedFields.mp hfield).1) hschemas n hn
    exact ⟨hfinite, (Number.spells_text_iff n).1.mpr hfinite⟩

/-! ### A shop -/

namespace Shop

/-- A tenth, which is written as `0.1`. -/
def tenth : Number := .real (Binary64.ofFraction false 1 10)

/-- An item has a price and an amount, which have defaults and bounds. -/
def config : ApiConfig :=
  { name := "Shop"
    resources := [
      { name := "Item"
        fields := [
          { name := "price", type := .number, lower := some tenth
            declaredDefault := some (.number tenth) },
          { name := "amount", type := .integer, upper := some (.int 100)
            declaredDefault := some (.number (.int 1)) }] }] }

end Shop

/-- The numbers of a shop are numerals wherever they are written. -/
theorem accepted_writes_numerals_shop : Shop.config.Accepted ∧ Shop.config.WritesNumerals := by
  have haccepted : Shop.config.Accepted := by decide +kernel
  exact ⟨haccepted, accepted_writes_numerals haccepted⟩

end ApiScaffold
