import Mathlib
import ApiScaffold.Proofs.Endpoint.Constants

/-! The keys that handlers stamp by themselves, read from the lines of a module. -/

namespace ApiScaffold.Endpoint

open Text
open Schema (indent)

/-- The key that stands in front of a closing bracket: the constant of the key or a text. -/
def keyOf? (lines : List String) (subscript : String) : Option String :=
  let expression := String.ofList (subscript.toList.takeWhile (· != ']'))
  if expression = "PRIMARY_KEY" then constant? Code.text? "PRIMARY_KEY" lines else Code.text? expression

/-- The keys that a handler sets by itself in the given record, in order. -/
def stampedKeys? (record : String) (lines : List String) : Option (List String) :=
  (lines.filterMap (behind? (indent ++ record ++ "["))).mapM (keyOf? lines)

/-! ### Lines that stamp nothing -/

/-- How the lines of a handler begin that stamp nothing. -/
def stampless : List String :=
  ["async def ", ") -> ", "    \"\"\"", "    payload: ", "    id: ", "    store: ", "    record: ", "    changes: ",
    "    now", "    created", "    updated", "    return ", "    if ", "        "]

theorem indented_one (text : String) : indented 1 text = indent ++ text := by
  have hjoined : String.join (List.replicate 1 indent) = indent := by decide
  rw [indented, hjoined]

theorem opens_word {fronts : List String} {word : String}
    (hword : ∃ front ∈ fronts, front.toList <+: (indent ++ word).toList) (rest : String) :
    Opens fronts (indented 1 (word ++ rest)) := by
  obtain ⟨front, hfront, hprefix⟩ := hword
  refine Or.inr ⟨front, hfront, ?_⟩
  rw [indented_one, ← String.append_assoc, String.toList_append]
  exact hprefix.trans (List.prefix_append _ _)

/-- The signature of a handler stamps nothing. -/
theorem opens_signature_stampless {spec : EndpointSpec} {parameters : List String} (result doc : String)
    (hparameters : ∀ parameter ∈ parameters, Opens stampless (indented 1 (parameter ++ ","))) :
    ∀ line ∈ signature spec parameters result doc, Opens stampless line := by
  unfold signature
  simp only [List.cons_append, List.forall_mem_cons, List.forall_mem_append, List.forall_mem_map]
  refine ⟨?_, ⟨hparameters, ?_, List.forall_mem_nil _⟩, ?_, ?_, List.forall_mem_nil _⟩
  · rw [String.append_assoc]
    exact Opens.of_prefix (by decide)
  · decide
  · rw [String.append_assoc]
    exact Opens.of_prefix (by decide)
  · rw [String.append_assoc]
    exact opens_word (by decide) _

theorem opens_notFound_stampless (spec : EndpointSpec) {condition : String} :
    ∀ line ∈ notFound spec condition, Opens stampless line := by
  have hdeep : ∀ text, Opens stampless (indented 3 text) := by
    intro text
    refine Or.inr ⟨"        ", by decide, ?_⟩
    rw [indented, String.toList_append]
    exact List.IsPrefix.trans (by decide) (List.prefix_append _ _)
  have hcondition : Opens stampless (indented 1 s!"if {condition}:") := by
    rw [String.append_assoc]
    exact opens_word (by decide) _
  unfold notFound
  simp only [List.forall_mem_cons]
  exact ⟨hcondition, by decide, hdeep _, by decide, List.forall_mem_nil _⟩

/-! ### Handlers -/

section Stamps

/-- What stands behind the opening bracket of a line that stamps a time. -/
def stampOf (source name : String) : String := textLiteral name ++ "] = " ++ source

/-- How the create handler and the update handler get the time. -/
def clock : String := "datetime.now(timezone.utc).isoformat()"

theorem behind?_stamp {record stamp text : String} (htext : record ++ "[" ++ stamp = text) :
    behind? (indent ++ record ++ "[") (indented 1 text) = some stamp := by
  rw [← htext, indented_one, ← String.append_assoc, ← String.append_assoc]
  exact behind?_append _ _

theorem filterMap_if {α β : Type} {f : α → Option β} (condition : Bool) {item : α} {made : β}
    (h : f item = some made) :
    (if condition then [item] else []).filterMap f = if condition then [made] else [] := by
  cases condition <;> simp [h]

variable (spec : EndpointSpec)

/-- The create handler stamps the key, and the times that its endpoint sets. -/
theorem filterMap_createHandler :
    (createHandler spec).filterMap (behind? (indent ++ "record" ++ "[")) =
      "PRIMARY_KEY] = str(uuid4())" ::
        ((if spec.setsCreatedAt then [stampOf "now" "createdAt"] else []) ++
          if spec.setsUpdatedAt then [stampOf "now" "updatedAt"] else []) := by
  have hne : indent ++ "record" ++ "[" ≠ "" := by decide
  have hapart : ∀ front ∈ stampless, Apart (indent ++ "record" ++ "[") front := by decide +kernel
  have hsignature : ∀ line ∈ signature spec [s!"payload: {nameOr spec.requestSchema}"]
      (nameOr spec.responseSchema) s!"Create a new {spec.resource} record.", Opens stampless line := by
    apply opens_signature_stampless
    rw [List.forall_mem_singleton, String.append_assoc]
    exact opens_word (by decide) _
  have hpayload : Opens stampless
      (indented 1 "record: Dict[str, Any] = payload.model_dump(mode=\"json\", exclude_unset=True)") := by
    decide
  have hnow : Opens stampless (indented 1 "now = datetime.now(timezone.utc).isoformat()") := by decide
  have hanswer : ∀ line ∈ [indented 1 "created = await store.create(TABLE_NAME, record)",
      indented 1 s!"return {nameOr spec.responseSchema}.model_validate(created)"], Opens stampless line := by
    rw [List.forall_mem_cons, List.forall_mem_singleton, String.append_assoc]
    exact ⟨by decide, opens_word (by decide) _⟩
  have hkey : behind? (indent ++ "record" ++ "[") (indented 1 "record[PRIMARY_KEY] = str(uuid4())") =
      some "PRIMARY_KEY] = str(uuid4())" := behind?_stamp (by decide)
  have hcreated : behind? (indent ++ "record" ++ "[") (indented 1 "record[\"createdAt\"] = now") =
      some (stampOf "now" "createdAt") := behind?_stamp (by decide)
  have hupdated : behind? (indent ++ "record" ++ "[") (indented 1 "record[\"updatedAt\"] = now") =
      some (stampOf "now" "updatedAt") := behind?_stamp (by decide)
  unfold createHandler
  simp only [List.filterMap_append]
  rw [filterMap_behind?_of_opens hne hapart hsignature, filterMap_behind?_of_opens hne hapart hanswer,
    filterMap_behind?_of_opens hne hapart (forall_mem_if (List.forall_mem_singleton.mpr hnow)),
    filterMap_if _ hcreated, filterMap_if _ hupdated,
    List.filterMap_cons_none (behind?_of_opens hne hapart hpayload), List.filterMap_cons_some hkey]
  simp only [List.filterMap_nil, List.nil_append, List.append_nil, List.singleton_append]

/-- The update handler stamps the time of the change, if its endpoint sets it. -/
theorem filterMap_updateHandler (hkey : spec.primaryKey = primaryKey) :
    (updateHandler spec).filterMap (behind? (indent ++ "changes" ++ "[")) =
      if spec.setsUpdatedAt then [stampOf clock "updatedAt"] else [] := by
  have hne : indent ++ "changes" ++ "[" ≠ "" := by decide
  have hapart : ∀ front ∈ stampless, Apart (indent ++ "changes" ++ "[") front := by decide +kernel
  have hparameter : Opens stampless (indented 1 (keyParameter spec ++ ",")) := by
    rw [keyParameter, hkey]
    decide
  have hsignature : ∀ line ∈ signature spec [s!"payload: {nameOr spec.requestSchema}", keyParameter spec]
      (nameOr spec.responseSchema) s!"Update an existing {spec.resource} record.", Opens stampless line := by
    apply opens_signature_stampless
    rw [List.forall_mem_cons, List.forall_mem_singleton, String.append_assoc]
    exact ⟨opens_word (by decide) _, hparameter⟩
  have hpayload : ∀ line ∈
      [indented 1 "changes: Dict[str, Any] = payload.model_dump(mode=\"json\", exclude_unset=True)"],
      Opens stampless line := by
    decide
  have hwrite : ∀ line ∈ [indented 1
      s!"updated = await store.update(TABLE_NAME, PRIMARY_KEY, {spec.primaryKey}, changes)"],
      Opens stampless line := by
    rw [List.forall_mem_singleton, String.append_assoc]
    exact opens_word (by decide) _
  have hanswer : ∀ line ∈ [indented 1 s!"return {nameOr spec.responseSchema}.model_validate(updated)"],
      Opens stampless line := by
    rw [List.forall_mem_singleton, String.append_assoc]
    exact opens_word (by decide) _
  have hupdated : behind? (indent ++ "changes" ++ "[")
      (indented 1 "changes[\"updatedAt\"] = datetime.now(timezone.utc).isoformat()") =
        some (stampOf clock "updatedAt") := behind?_stamp (by decide)
  unfold updateHandler
  simp only [List.filterMap_append]
  rw [filterMap_behind?_of_opens hne hapart hsignature, filterMap_behind?_of_opens hne hapart hpayload,
    filterMap_behind?_of_opens hne hapart hwrite,
    filterMap_behind?_of_opens hne hapart (opens_notFound_stampless spec),
    filterMap_behind?_of_opens hne hapart hanswer, filterMap_if _ hupdated]
  simp only [List.nil_append, List.append_nil]

/-- The names of the records in which handlers stamp keys. -/
def stampedRecords : List String := ["record", "changes"]

end Stamps

/-! ### Modules -/

section Keys

variable (resource : ResourceSpec) (operation : Operation)

/-- The stamps of a module are those of its handler. -/
theorem filterMap_moduleLines {record : String} (hrecord : record ∈ stampedRecords) :
    (moduleLines resource operation).filterMap (behind? (indent ++ record ++ "[")) =
      (handler (describe resource operation)).filterMap (behind? (indent ++ record ++ "[")) := by
  have hne : ∀ other ∈ stampedRecords, indent ++ other ++ "[" ≠ "" := by decide
  have hopenings : ∀ other ∈ stampedRecords, ∀ front ∈ openings, Apart (indent ++ other ++ "[") front := by
    decide +kernel
  have hnames : ∀ other ∈ stampedRecords, ∀ front ∈ constantNames, Apart (indent ++ other ++ "[") front := by
    decide +kernel
  have hempty : behind? (indent ++ record ++ "[") "" = none :=
    behind?_empty (hne record hrecord)
  have hconstants : ∀ line ∈ (constantTable (describe resource operation)
      (resource.queryFilters.map FieldSpec.name)).map assignment, Opens constantNames line := by
    rw [List.forall_mem_map]
    intro entry hentry
    rw [assignment, String.append_assoc]
    exact Opens.of_prefix (constantTable_names _ _ entry hentry)
  rw [moduleLines_eq, List.filterMap_append, List.filterMap_append,
    filterMap_behind?_of_opens (hne record hrecord) (hopenings record hrecord) (opens_linesBefore _ _),
    filterMap_behind?_of_opens (hne record hrecord) (hnames record hrecord) hconstants, linesBehind]
  simp [List.filterMap_append, hempty]

/-- A time is stamped under its own name. -/
theorem keyOf?_stampOf (lines : List String) (source : String) {name : String}
    (hname : name ∈ ["createdAt", "updatedAt"]) : keyOf? lines (stampOf source name) = some name := by
  have hwritten : ∀ other ∈ ["createdAt", "updatedAt"], textLiteral other = "\"" ++ other ++ "\"" ∧
      "\"" ++ other ++ "\"" ≠ "PRIMARY_KEY" ∧ ']' ∉ other.toList := by
    decide
  obtain ⟨hliteral, hne, hfree⟩ := hwritten name hname
  have hends : ∀ c ∈ (textLiteral name).toList, (c != ']') = true := by
    intro c hc
    rw [bne_iff_ne]
    rintro rfl
    rw [hliteral] at hc
    exact not_mem_append (not_mem_append (by decide) hfree) (by decide) hc
  have hexpression : String.ofList ((stampOf source name).toList.takeWhile (· != ']')) = textLiteral name := by
    have hchars : (stampOf source name).toList =
        (textLiteral name).toList ++ ']' :: (" = " ++ source).toList := by
      simp [stampOf, String.toList_append]
    rw [hchars, List.takeWhile_append_of_pos hends]
    simp
  rw [keyOf?, hexpression, if_neg (hliteral ▸ hne), Code.text?_textLiteral]

/-- The create handler stamps the key and the timestamps that records of the resource carry. -/
theorem stampedKeys?_create :
    stampedKeys? "record" (moduleLines resource .create) = some resource.syntheticNames := by
  have hkey : keyOf? (moduleLines resource .create) "PRIMARY_KEY] = str(uuid4())" = some primaryKey := by
    have hexpression : String.ofList ("PRIMARY_KEY] = str(uuid4())".toList.takeWhile (· != ']')) =
        "PRIMARY_KEY" := by decide
    rw [keyOf?, hexpression, if_pos rfl, constant?_key]
  have htimes : ∀ name ∈ ["createdAt", "updatedAt"],
      keyOf? (moduleLines resource .create) (stampOf "now" name) = some name := fun _ hname =>
    keyOf?_stampOf (moduleLines resource .create) "now" hname
  simp only [List.forall_mem_cons] at htimes
  obtain ⟨hcreated, hupdated, -⟩ := htimes
  have hstamps : (handler (describe resource .create)).filterMap (behind? (indent ++ "record" ++ "[")) =
      "PRIMARY_KEY] = str(uuid4())" ::
        ((if resource.timestamps.createdAt then [stampOf "now" "createdAt"] else []) ++
          if resource.timestamps.updatedAt then [stampOf "now" "updatedAt"] else []) :=
    filterMap_createHandler (describe resource .create)
  rw [stampedKeys?, filterMap_moduleLines resource .create (by decide), hstamps, List.mapM_cons, hkey,
    ResourceSpec.syntheticNames, TimestampPolicy.names]
  cases resource.timestamps.createdAt <;> cases resource.timestamps.updatedAt <;> simp [hcreated, hupdated]

theorem stampedKeys?_update :
    stampedKeys? "changes" (moduleLines resource .update) =
      some (if resource.timestamps.updatedAt then ["updatedAt"] else []) := by
  have hupdated : keyOf? (moduleLines resource .update) (stampOf clock "updatedAt") = some "updatedAt" :=
    keyOf?_stampOf (moduleLines resource .update) clock (by decide)
  have hstamps : (handler (describe resource .update)).filterMap (behind? (indent ++ "changes" ++ "[")) =
      if resource.timestamps.updatedAt then [stampOf clock "updatedAt"] else [] :=
    filterMap_updateHandler (describe resource .update) rfl
  rw [stampedKeys?, filterMap_moduleLines resource .update (by decide), hstamps]
  cases resource.timestamps.updatedAt <;> simp [hupdated]

end Keys

end ApiScaffold.Endpoint
