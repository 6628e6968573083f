import Mathlib
import ApiScaffold.Proofs.Migration.Contents
import ApiScaffold.Proofs.Migration.Resolution
import ApiScaffold.Proofs.Migration.Seed
import ApiScaffold.Proofs.Schema.Views
import ApiScaffold.Proofs.Sql.TableScript
import ApiScaffold.Proofs.Text.Literal

/-! Defaults that are texts, in all views of a field. The API document and the models of records give a text
as it is declared. The script that creates the table gives it as tidying leaves it, so the views agree on a
text exactly if there is nothing in it to be tidied. -/

namespace ApiScaffold

/-! ### Tables -/

namespace Migration

variable {withRelations : Bool} {resource : ResourceSpec} {table : Sql.Table}

/-- The defaults of a table are those of its fields. -/
theorem isSimple_default (h : tableOf withRelations resource = .ok table) {column : Sql.Column}
    (hcolumn : column ∈ table.columns) {default : Sql.ColumnDefault} (hdefault : default ∈ column.default) :
    default.IsSimple := by
  obtain ⟨columns, hcolumns, rfl⟩ := tableOf_eq_ok.mp h
  rw [List.cons_append, List.mem_cons, List.mem_append] at hcolumn
  rcases hcolumn with rfl | hfield | htime
  · cases hdefault
  · obtain ⟨field, -, hmade⟩ := Outcome.exists_of_mem_results hcolumns hfield
    obtain ⟨mapping, written, -, hwritten, rfl⟩ := fieldColumn_eq_ok.mp hmade
    cases hdeclared : field.declaredDefault with
    | none =>
        rw [hdeclared] at hwritten
        obtain rfl := Except.ok.inj hwritten
        cases hdefault
    | some s =>
        rw [hdeclared] at hwritten
        obtain ⟨source, hsource, rfl⟩ := Outcome.map_eq_ok.mp hwritten
        obtain rfl := Option.some.inj hdefault
        exact Sql.isSimple_of_columnDefault hsource
  · obtain ⟨name, -, rfl⟩ := List.mem_map.mp htime
    cases hdefault

/-- The table of a resource with plain names is simple. -/
theorem isSimple_tableOf (h : tableOf withRelations resource = .ok table)
    (hplain : ∀ name ∈ resource.fieldNames, Naming.IsPlain name) : table.IsSimple where
  name := by
    rw [tableOf_name h]
    exact Naming.isPlain_tableName resource.name
  columns := fun _ hcolumn => isPlain_tableColumn hplain h hcolumn
  defaults := fun _ hcolumn _ hdefault => isSimple_default h hcolumn hdefault

theorem isScript_tableText (h : Naming.IsPlain table.name) : table.IsScript (tableText table) := by
  refine ⟨" Create ".toList ++ table.name.toList ++ " table".toList, ";\n".toList, ?_, ?_⟩
  · simp only [List.mem_append, not_or]
    exact ⟨⟨by decide, h.not_mem (by decide)⟩, by decide⟩
  · change ("-- Create " ++ table.name ++ " table\n" ++ table.statement ++ ";\n").toList = _
    simp

/-- A stored field that declares a text has a column with this text for a default. -/
theorem exists_column_of_text (h : tableOf withRelations resource = .ok table) {field : FieldSpec}
    (hfield : field ∈ resource.storedFields) {s : String} (hdefault : field.declaredDefault = some (.text s)) :
    ∃ mapping, Schema.mapField field = .ok mapping ∧ ∃ column ∈ table.columns,
      column.name = field.name ∧ column.default = some (.text s) := by
  obtain ⟨columns, hcolumns, rfl⟩ := tableOf_eq_ok.mp h
  obtain ⟨column, hcolumn, hmade⟩ := Outcome.exists_of_mem_mapM hcolumns hfield
  obtain ⟨mapping, written, hmapping, hwritten, rfl⟩ := fieldColumn_eq_ok.mp hmade
  rw [hdefault] at hwritten
  obtain rfl := Except.ok.inj hwritten
  refine ⟨mapping, hmapping, columnOf withRelations field mapping.storage (some (.text s)), ?_, rfl, rfl⟩
  simp [hcolumn]

/-- **Stored texts.** In the script of a resource with plain names, the column of a field that declares a
text has this text for a default, as tidying leaves it. -/
theorem storedText?_tableText (h : tableOf withRelations resource = .ok table)
    (hnodup : resource.fieldNames.Nodup) (hplain : ∀ name ∈ resource.fieldNames, Naming.IsPlain name)
    {field : FieldSpec} (hfield : field ∈ resource.storedFields) {s : String}
    (hdefault : field.declaredDefault = some (.text s)) :
    Sql.storedText? field.name (tableText table) = some (Sql.tidied s) := by
  obtain ⟨-, -, column, hcolumn, hname, hstored⟩ := exists_column_of_text h hfield hdefault
  have hcolumns : table.columnNames.Nodup := by
    rw [tableOf_columnNames h]
    exact ResourceSpec.tableColumns_nodup hnodup
  have hsimple := isSimple_tableOf h hplain
  rw [← hname, hsimple.storedText? (isScript_tableText hsimple.name) hcolumns hcolumn,
    Sql.Column.storedText?, hstored]

/-- Where its references resolve and a token is left, a table is created. -/
theorem exists_createTable {tables : List Sql.Table}
    (hresolves : ∀ column ∈ table.columns, ∀ reference ∈ column.reference, Sql.Resolves tables reference)
    {before : Sequence} {token : String} (htoken : before.token = .ok token) :
    ∃ artifact after, Sequence.run (createTable tables resource table) before = (.ok artifact, after) := by
  cases hrun : Sequence.run (createTable tables resource table) before with
  | mk outcome after =>
      cases outcome with
      | ok artifact => exact ⟨artifact, after, rfl⟩
      | error fault => cases htoken.symm.trans (run_createTable_eq_error hresolves hrun)

theorem content_createTable {tables : List Sql.Table} {before after : Sequence} {artifact : Artifact}
    (h : Sequence.run (createTable tables resource table) before = (.ok artifact, after)) :
    artifact.content = tableText table := by
  obtain ⟨text, token, htext, -, rfl, -⟩ := run_issue_eq_ok.mp h
  exact tableScript_eq_ok htext

end Migration

/-! ### Models of records -/

namespace Schema

/-- The default that a setting gives. -/
def Setting.default? : Setting → Option Scalar
  | .unset => none
  | .plain default => some default
  | .field default _ _ => default

/-- The text that a model gives for an attribute where nothing is given, read from the literal it is
written as. -/
def Model.defaultText? (model : Model) (name : String) : Option String :=
  (((model.attributes.find? fun a => a.name == name).bind fun a => a.setting.default?).bind
    fun default => default.literal.toOption).bind Code.text?

variable {resource : ResourceSpec} {field : FieldSpec} {resolved : Mappings}

theorem attributeOf_default? (field : FieldSpec) (default : Option Scalar) :
    (attributeOf resolved field default).setting.default? = default := by
  cases default with
  | none =>
      rw [attributeOf]
      dsimp only
      split <;> rfl
  | some value =>
      rw [attributeOf]
      dsimp only
      split <;> rfl

/-- The attribute of a stored field is found by its name. -/
theorem find?_recordModel (hnodup : resource.fieldNames.Nodup) (hfield : field ∈ resource.storedFields) :
    (recordModel resource resolved).attributes.find? (fun a => a.name == field.name) =
      some (declaredAttribute resolved field) := by
  have hattributes : (recordModel resource resolved).attributes =
      resource.outline ⟨primaryKey, .named "UUID", .unset⟩ (declaredAttribute resolved)
        fun name => ⟨name, .named "datetime", .unset⟩ := rfl
  have hnames : (recordModel resource resolved).attributes.map Attribute.name = resource.tableColumns := by
    rw [hattributes, ResourceSpec.map_outline, ResourceSpec.tableColumns_eq_outline]
    exact ResourceSpec.outline_congr fun field _ => declaredAttribute_name field
  have hmem : declaredAttribute resolved field ∈ (recordModel resource resolved).attributes := by
    rw [hattributes, ResourceSpec.outline, List.cons_append, List.mem_cons, List.mem_append]
    exact Or.inr (Or.inl (List.mem_map_of_mem hfield))
  have hname : (declaredAttribute resolved field).name = field.name := declaredAttribute_name field
  rw [← List.head?_filter, ← hname,
    filter_eq_singleton (hnames ▸ ResourceSpec.tableColumns_nodup hnodup) hmem]
  rfl

/-- A record gives the text that a field declares, unless the field is required. -/
theorem recordModel_defaultText? (hnodup : resource.fieldNames.Nodup)
    (hfield : field ∈ resource.storedFields) {s : String} (hdefault : field.declaredDefault = some (.text s)) :
    (recordModel resource resolved).defaultText? field.name = if field.required then none else some s := by
  have hvalue : field.default = .text s := by rw [FieldSpec.default, hdefault, Option.getD_some]
  rw [Model.defaultText?, find?_recordModel hnodup hfield, Option.bind_some, declaredAttribute,
    attributeOf_default?]
  cases field.required with
  | true => rfl
  | false => exact hvalue ▸ Code.text?_textLiteral s

/-- The API document gives the text that a field declares. -/
theorem member?_default_of_text {mapping : FieldMapping} (h : mapField field = .ok mapping) {s : String}
    (hdefault : field.declaredDefault = some (.text s)) :
    (Json.object mapping.apiSchema).member? "default" = some (.text s) := by
  obtain ⟨-, -, bounds, -, hschema⟩ := mapField_eq_ok h
  rw [hschema, member?_default, hdefault]
  rfl

end Schema

/-! ### All views -/

namespace Migration

/-- **Stored defaults.** For a stored field that declares a text, the API document gives this text, and so
does the model of records unless the field is required. The script that creates the table, read by the rules
of SQL, gives it as tidying leaves it: the very same text exactly if it is settled. There is such a script
wherever the references of the table resolve and a token is left. -/
theorem stored_default_iff {withRelations : Bool} {resource : ResourceSpec} {table : Sql.Table}
    (h : tableOf withRelations resource = .ok table) (hnodup : resource.fieldNames.Nodup)
    (hplain : ∀ name ∈ resource.fieldNames, Naming.IsPlain name) (tables : List Sql.Table) :
    ((∀ column ∈ table.columns, ∀ reference ∈ column.reference, Sql.Resolves tables reference) →
        ∀ before token, before.token = .ok token → ∃ artifact after,
          Sequence.run (createTable tables resource table) before = (.ok artifact, after)) ∧
      ∀ before artifact after,
        Sequence.run (createTable tables resource table) before = (.ok artifact, after) →
        ∀ field ∈ resource.storedFields, ∀ s, field.declaredDefault = some (.text s) →
          (∃ mapping, Schema.mapField field = .ok mapping ∧
            (Json.object mapping.apiSchema).member? "default" = some (.text s)) ∧
          (∀ resolved, (Schema.recordModel resource resolved).defaultText? field.name =
            if field.required then none else some s) ∧
          Sql.storedText? field.name artifact.content = some (Sql.tidied s) ∧
          (Sql.storedText? field.name artifact.content = some s ↔ Sql.IsSettled s.toList) := by
  refine ⟨fun hresolves _ _ htoken => exists_createTable hresolves htoken, ?_⟩
  intro before artifact after hrun field hfield s hdefault
  obtain ⟨mapping, hmapping, -⟩ := exists_column_of_text h hfield hdefault
  have hstored : Sql.storedText? field.name artifact.content = some (Sql.tidied s) := by
    rw [content_createTable hrun]
    exact storedText?_tableText h hnodup hplain hfield hdefault
  refine ⟨⟨mapping, hmapping, Schema.member?_default_of_text hmapping hdefault⟩,
    fun _ => Schema.recordModel_defaultText? hnodup hfield hdefault, hstored, ?_⟩
  rw [hstored, Option.some.injEq]
  exact Sql.tidied_eq_self_iff

/-- Posts are drafts at first, in all views. -/
theorem stored_default_post :
    ∃ tables table artifact after, tableOf true Blog.post = .ok table ∧
      Sequence.run (createTable tables Blog.post table) { stamp := "202401010000" } = (.ok artifact, after) ∧
        Sql.storedText? "status" artifact.content = some "draft" := by
  have hok : (buildTables true Blog.config.resources).isOk = true := by decide +kernel
  obtain ⟨tables, hbuilt⟩ := Outcome.exists_eq_ok hok
  have hpost : Blog.post ∈ Blog.config.resources := by decide
  obtain ⟨table, hmem, htable⟩ := Outcome.exists_of_mem_mapM (buildTables_eq_ok hbuilt) hpost
  have htoken : ({ stamp := "202401010000" } : Sequence).token = .ok "202401010000_0001" := by decide +kernel
  have hstatus : Blog.statusField ∈ Blog.post.storedFields := by decide
  obtain ⟨hexists, hviews⟩ := stored_default_iff htable (by decide) (by decide) tables
  obtain ⟨artifact, after, hrun⟩ := hexists
    (fun column hcolumn reference hreference =>
      reference_resolves Blog.accepted hbuilt hmem hcolumn hreference) _ _ htoken
  obtain ⟨-, -, -, hsettled⟩ := hviews _ artifact after hrun _ hstatus "draft" rfl
  exact ⟨tables, table, artifact, after, htable, hrun, hsettled.mpr (by decide)⟩

namespace Tabbed

def motto : FieldSpec := { name := "motto", type := .string, declaredDefault := some (.text "a\tb") }

def note : ResourceSpec := { name := "Note", fields := [motto] }

def table : Sql.Table :=
  ⟨"notes", [keyColumn, { name := "motto", storage := .text, nullable := true, default := some (.text "a\tb") },
    timestampColumn "createdAt", timestampColumn "updatedAt"]⟩

end Tabbed

/-- A tab in a default is stored as two blanks, though all other views keep it. -/
theorem stored_default_tabbed :
    tableOf true Tabbed.note = .ok Tabbed.table ∧
      (∃ artifact after, Sequence.run (createTable [] Tabbed.note Tabbed.table) { stamp := "202401010000" } =
          (.ok artifact, after) ∧ Sql.storedText? "motto" artifact.content = some "a  b") ∧
        (∃ mapping, Schema.mapField Tabbed.motto = .ok mapping ∧
          (Json.object mapping.apiSchema).member? "default" = some (.text "a\tb")) ∧
        ∀ resolved, (Schema.recordModel Tabbed.note resolved).defaultText? "motto" = some "a\tb" := by
  have htable : tableOf true Tabbed.note = .ok Tabbed.table := by rfl
  have hresolves : ∀ column ∈ Tabbed.table.columns, ∀ reference ∈ column.reference,
      Sql.Resolves [] reference := by
    intro column hcolumn reference hreference
    have hnone : Tabbed.table.columns.all (fun column => column.reference.isNone) = true := by decide
    have hcolumn := List.all_eq_true.mp hnone column hcolumn
    rw [Option.mem_def.mp hreference] at hcolumn
    cases hcolumn
  have htoken : ({ stamp := "202401010000" } : Sequence).token = .ok "202401010000_0001" := by decide +kernel
  have hmotto : Tabbed.motto ∈ Tabbed.note.storedFields := by decide
  have hnodup : Tabbed.note.fieldNames.Nodup := by decide
  have htidied : Sql.tidied "a\tb" = "a  b" := by decide
  obtain ⟨artifact, after, hrun⟩ := exists_createTable hresolves htoken
  obtain ⟨mapping, hmapping, -⟩ := exists_column_of_text htable hmotto rfl
  refine ⟨htable, ⟨artifact, after, hrun, ?_⟩,
    ⟨mapping, hmapping, Schema.member?_default_of_text hmapping rfl⟩,
    fun resolved => Schema.recordModel_defaultText? hnodup hmotto rfl⟩
  rw [content_createTable hrun, ← htidied]
  exact storedText?_tableText htable hnodup (by decide) hmotto rfl

end Migration

end ApiScaffold
