import Mathlib
import ApiScaffold.Proofs.Endpoint.Columns

/-! The columns that a record cannot be created without, against what a create request brings and what the create
handler stamps. Requests leave out every name that the server can manage, also where the policy of the resource
says that it does not: a declared field of such a name is then in nobody's hands. -/

namespace ApiScaffold

/-- A column without which no record can be stored. -/
def Sql.Column.isMandatory (column : Sql.Column) : Bool := !column.nullable && column.default.isNone

/-- An attribute that has no default, so that it has to be given. -/
def Schema.Attribute.isRequired (a : Schema.Attribute) : Bool :=
  match a.setting with
  | .unset => true
  | .plain _ => false
  | .field default _ _ => default.isNone

/-- Every mandatory column is stamped, or is a required attribute of what a request brings. -/
def FillsMandatory (table : Sql.Table) (stamped : List String) (create : Schema.Model) : Prop :=
  ∀ column ∈ table.columns, column.isMandatory = true →
    column.name ∈ stamped ∨ ∃ a ∈ create.attributes, a.name = column.name ∧ a.isRequired = true

/-- Whatever has to be there under a name that the server can manage is managed by it or has a default. -/
def ResourceSpec.ManagesOwn (resource : ResourceSpec) : Prop :=
  ∀ field ∈ resource.fields, field.name ∈ serverManaged → field.required = true → field.hasDefault = false →
    field.name ∈ resource.syntheticNames

instance (resource : ResourceSpec) : Decidable resource.ManagesOwn :=
  inferInstanceAs (Decidable (∀ field ∈ resource.fields, _))

variable {resource : ResourceSpec} {resolved : Schema.Mappings} {withRelations : Bool} {table : Sql.Table}

/-- The names of the columns, and which of them are mandatory. -/
theorem Migration.table_mandatory (h : tableOf withRelations resource = .ok table) :
    table.columns.map (fun column => (column.name, column.isMandatory)) =
      resource.outline (primaryKey, true) (fun field => (field.name, field.required && !field.hasDefault))
        fun name => (name, true) := by
  apply tableOf_map h
  intro field column hcolumn
  obtain ⟨mapping, default, -, hdefault, rfl⟩ := fieldColumn_eq_ok.mp hcolumn
  have hsome := Outcome.option_isSome_of_mapM hdefault
  rw [Sql.Column.isMandatory, columnOf, Bool.not_not, FieldSpec.hasDefault, ← hsome, Option.not_isSome]

theorem Schema.declaredAttribute_isRequired (field : FieldSpec) :
    (declaredAttribute resolved field).isRequired = field.required := by
  rw [declaredAttribute]
  cases hrequired : field.required with
  | true =>
      simp only [attributeOf, if_true]
      split <;> rfl
  | false =>
      simp only [attributeOf, Bool.false_eq_true, if_false]
      split <;> rfl

/-- A required attribute of what a request brings is a required field that is left to clients. -/
theorem Schema.exists_required_iff {name : String} :
    (∃ a ∈ (createModel resource resolved).attributes, a.name = name ∧ a.isRequired = true) ↔
      ∃ field ∈ resource.clientFields, field.name = name ∧ field.required = true := by
  rw [createModel]
  constructor
  · rintro ⟨a, ha, hname, hrequired⟩
    obtain ⟨field, hfield, rfl⟩ := List.mem_map.mp ha
    rw [declaredAttribute_name] at hname
    rw [declaredAttribute_isRequired] at hrequired
    exact ⟨field, hfield, hname, hrequired⟩
  · rintro ⟨field, hfield, hname, hrequired⟩
    refine ⟨declaredAttribute resolved field, List.mem_map_of_mem hfield, ?_, ?_⟩
    · rwa [declaredAttribute_name]
    · rwa [declaredAttribute_isRequired]

theorem fillsMandatory_iff (h : Migration.tableOf withRelations resource = .ok table) :
    FillsMandatory table resource.syntheticNames (Schema.createModel resource resolved) ↔
      resource.ManagesOwn := by
  have hentries : FillsMandatory table resource.syntheticNames (Schema.createModel resource resolved) ↔
      ∀ entry ∈ resource.outline (primaryKey, true)
          (fun field => (field.name, field.required && !field.hasDefault)) (fun name => (name, true)),
        entry.2 = true → entry.1 ∈ resource.syntheticNames ∨
          ∃ field ∈ resource.clientFields, field.name = entry.1 ∧ field.required = true := by
    rw [← Migration.table_mandatory h, List.forall_mem_map]
    exact forall₂_congr fun column _ => by rw [Schema.exists_required_iff]
  rw [hentries, ResourceSpec.outline]
  simp only [List.cons_append, List.forall_mem_cons, List.forall_mem_append, List.forall_mem_map,
    Bool.and_eq_true, Bool.not_eq_true']
  constructor
  · rintro ⟨-, hfields, -⟩ field hfield hmanaged hrequired hdefault
    by_contra hown
    have hstored : field ∈ resource.storedFields := by
      rw [ResourceSpec.storedFields, List.mem_filter]
      exact ⟨hfield, by simpa using hown⟩
    rcases hfields field hstored ⟨hrequired, hdefault⟩ with hname | ⟨other, hother, hname, -⟩
    · exact hown hname
    · -- A field that is left to clients has no name that the server can manage.
      have hfree := (List.mem_filter.mp hother).2
      rw [hname] at hfree
      simp [hmanaged] at hfree
  · intro hown
    refine ⟨fun _ => Or.inl List.mem_cons_self, fun field hfield hmandatory => ?_,
      fun name hname _ => Or.inl (List.mem_cons_of_mem _ hname)⟩
    have hdeclared := (ResourceSpec.mem_storedFields.mp hfield).1
    by_cases hmanaged : field.name ∈ serverManaged
    · exact Or.inl (hown field hdeclared hmanaged hmandatory.1 hmandatory.2)
    · refine Or.inr ⟨field, List.mem_filter.mpr ⟨hdeclared, ?_⟩, rfl, hmandatory.1⟩
      simpa using hmanaged

/-- **A create request can fill the mandatory columns** of a table, together with what its handler stamps,
exactly if the resource manages what it declares under a name of the server: a required field `createdAt`
without a default, where the policy has no `createdAt`, is neither stamped nor taken from a request. -/
theorem create_fills_mandatory_iff (h : Migration.buildTable withRelations resource = .ok table)
    (resolved : Schema.Mappings) :
    ∃ stamped, Endpoint.stampedKeys? "record" (Endpoint.moduleLines resource .create) = some stamped ∧
      (FillsMandatory table stamped (Schema.createModel resource resolved) ↔ resource.ManagesOwn) :=
  ⟨resource.syntheticNames, Endpoint.stampedKeys?_create resource,
    fillsMandatory_iff (Migration.tableOf_of_buildTable h)⟩

/-- Posts can be created with the times that their policy has. -/
theorem create_fills_mandatory_blog :
    ∃ table, Migration.buildTable true Blog.post = .ok table ∧ ∀ resolved,
      ∃ stamped, Endpoint.stampedKeys? "record" (Endpoint.moduleLines Blog.post .create) = some stamped ∧
        FillsMandatory table stamped (Schema.createModel Blog.post resolved) := by
  have hok : (Migration.buildTable true Blog.post).isOk = true := by decide +kernel
  have hown : Blog.post.ManagesOwn := by decide
  obtain ⟨table, htable⟩ := Outcome.exists_eq_ok hok
  refine ⟨table, htable, fun resolved => ?_⟩
  obtain ⟨stamped, hstamped, hfills⟩ := create_fills_mandatory_iff htable resolved
  exact ⟨stamped, hstamped, hfills.mpr hown⟩

namespace Undated

/-- Posts whose records say themselves when they were created. -/
def post : ResourceSpec :=
  { name := "Post"
    fields := [{ name := "title", type := .string, required := true },
      { name := "createdAt", type := .datetime, required := true }]
    timestamps := { createdAt := false } }

def config : ApiConfig := { name := "Blog", resources := [post] }

theorem accepted : config.Accepted := by decide +kernel

end Undated

/-- No post can be created without the server's time: the time of its own is mandatory and in nobody's hands. -/
theorem create_leaves_mandatory_undated :
    Undated.config.Accepted ∧ Undated.post ∈ Undated.config.resources ∧
      ∃ table resolved stamped, Migration.buildTable true Undated.post = .ok table ∧
        Schema.mappings Undated.post = .ok resolved ∧
        Endpoint.stampedKeys? "record" (Endpoint.moduleLines Undated.post .create) = some stamped ∧
        ¬FillsMandatory table stamped (Schema.createModel Undated.post resolved) := by
  have htable : (Migration.buildTable true Undated.post).isOk = true := by decide +kernel
  have hresolved : (Schema.mappings Undated.post).isOk = true := by decide +kernel
  have hopen : ¬Undated.post.ManagesOwn := by decide
  obtain ⟨table, htable⟩ := Outcome.exists_eq_ok htable
  obtain ⟨resolved, hresolved⟩ := Outcome.exists_eq_ok hresolved
  refine ⟨Undated.accepted, List.mem_cons_self, table, resolved, _, htable, hresolved,
    Endpoint.stampedKeys?_create Undated.post, ?_⟩
  rwa [fillsMandatory_iff (Migration.tableOf_of_buildTable htable)]

end ApiScaffold
