import Mathlib
import ApiScaffold.Proofs.Bundle.Build
import ApiScaffold.Proofs.Keyed
import ApiScaffold.Proofs.Migration.Issued
import ApiScaffold.Proofs.Schema.Module

/-! Where the artifacts of a run go. Migrations never share a path or a key, nor do artifacts of
different sorts. Schemas and endpoints take their names from the modules of their resources, which the
checks do not compare: nothing is overwritten exactly if the plurals of these modules differ. -/

namespace ApiScaffold

/-- The modules of different resources have different plurals. -/
def ApiConfig.ModulesApart (config : ApiConfig) : Prop :=
  (config.resources.map fun resource => Naming.plural (Naming.moduleName resource.name)).Nodup

instance (config : ApiConfig) : Decidable config.ModulesApart :=
  inferInstanceAs (Decidable (List.Nodup _))

theorem ApiConfig.modulesApart_iff {config : ApiConfig} :
    config.ModulesApart ↔ config.resources.Pairwise fun resource other =>
      Naming.plural (Naming.moduleName resource.name) ≠
        Naming.plural (Naming.moduleName other.name) := by
  rw [ModulesApart, List.nodup_iff_pairwise_ne, List.pairwise_map]

theorem disjoint_of_heads {first second : List String}
    (h : ∀ a ∈ first, ∀ b ∈ second, a.toList.head? ≠ b.toList.head?) : first.Disjoint second :=
  fun text hfirst hsecond => h text hfirst text hsecond rfl

/-! ### Schemas -/

namespace Schema

/-- The paths of the schema modules. -/
def paths (config : ApiConfig) : List String :=
  config.resources.map fun resource => Naming.schemaPath resource.name

theorem head?_schemaPath (resource : String) :
    (Naming.schemaPath resource).toList.head? = some 's' := by
  change ("schemas/" ++ Naming.moduleName resource ++ ".py").toList.head? = _
  rw [String.toList_append, String.toList_append, List.append_assoc]
  rfl

theorem schemaPath_inj {left right : String}
    (h : Naming.schemaPath left = Naming.schemaPath right) :
    Naming.moduleName left = Naming.moduleName right :=
  (String.append_right_inj "schemas/").mp ((String.append_left_inj ".py").mp h)

theorem artifact_eq_ok {resource : ResourceSpec} {made : Artifact}
    (h : artifact resource = .ok made) : made.StaysAt (Naming.schemaPath resource.name) := by
  obtain ⟨hpath, hdetail⟩ := artifact_made h
  refine ⟨hpath, ne_empty_of_head? (head?_schemaPath resource.name), fun _ _ hother => ?_⟩
  rw [hdetail] at hother
  cases hother

theorem head?_of_mem_paths {config : ApiConfig} {path : String} (h : path ∈ paths config) :
    path.toList.head? = some 's' := by
  obtain ⟨resource, -, rfl⟩ := List.mem_map.mp h
  exact head?_schemaPath resource.name

theorem paths_nodup {config : ApiConfig} (h : config.ModulesApart) : (paths config).Nodup := by
  rw [paths, List.nodup_iff_pairwise_ne, List.pairwise_map]
  exact (ApiConfig.modulesApart_iff.mp h).imp fun hne heq =>
    hne (congrArg Naming.plural (schemaPath_inj heq))

end Schema

/-! ### Endpoints -/

namespace Endpoint

/-- The path of the module of an endpoint. -/
def modulePath (resource : ResourceSpec) (operation : Operation) : String :=
  "endpoints/" ++ handlerOf resource.name operation ++ ".py"

/-- The paths of the endpoint modules. -/
def paths (config : ApiConfig) : List String :=
  config.resources.flatMap fun resource => Operation.all.map (modulePath resource)

theorem head?_modulePath (resource : ResourceSpec) (operation : Operation) :
    (modulePath resource operation).toList.head? = some 'e' := by
  rw [modulePath, String.toList_append, String.toList_append, List.append_assoc]
  rfl

theorem head?_of_mem_paths {config : ApiConfig} {path : String} (h : path ∈ paths config) :
    path.toList.head? = some 'e' := by
  obtain ⟨resource, -, hpath⟩ := List.mem_flatMap.mp h
  obtain ⟨operation, -, rfl⟩ := List.mem_map.mp hpath
  exact head?_modulePath resource operation

theorem artifact_staysAt (resource : ResourceSpec) (operation : Operation) :
    (artifact resource operation).StaysAt (modulePath resource operation) :=
  ⟨rfl, ne_empty_of_head? (head?_modulePath resource operation), fun _ _ hdetail => nomatch hdetail⟩

theorem operation_name_injective : Function.Injective Operation.name := by
  intro left right h
  cases left <;> cases right <;> first | rfl | exact absurd h (by decide)

/-- A path tells the operation and what it is about. -/
theorem modulePath_inj {resource other : ResourceSpec} {operation operation' : Operation}
    (h : modulePath resource operation = modulePath other operation') :
    operation = operation' ∧
      (if operation = .list then Naming.plural (Naming.moduleName resource.name)
        else Naming.moduleName resource.name) =
      (if operation' = .list then Naming.plural (Naming.moduleName other.name)
        else Naming.moduleName other.name) := by
  have hhandler := (String.append_right_inj _).mp ((String.append_left_inj _).mp h)
  have hlists := congrArg String.toList hhandler
  simp only [handlerOf, String.toList_append, List.append_assoc] at hlists
  have hmark : ∀ op : Operation, '_' ∉ op.name.toList := by
    intro op
    cases op <;> decide
  obtain ⟨hname, hsubject⟩ := append_mark_inj (hmark operation) (hmark operation') hlists
  exact ⟨operation_name_injective (String.toList_injective hname), String.toList_injective hsubject⟩

/-- The endpoints of two resources get in each other's way if the plurals of their modules agree: at
least for the list query, and for all operations if the modules agree. -/
theorem disjoint_modulePaths {resource other : ResourceSpec} :
    (Operation.all.map (modulePath resource)).Disjoint (Operation.all.map (modulePath other)) ↔
      Naming.plural (Naming.moduleName resource.name) ≠
        Naming.plural (Naming.moduleName other.name) := by
  constructor
  · intro h heq
    have hpath : modulePath resource .list = modulePath other .list := by
      simp only [modulePath, handlerOf, if_true, heq]
    have hmem : ∀ r, modulePath r .list ∈ Operation.all.map (modulePath r) := fun r =>
      List.mem_map_of_mem (Operation.mem_all .list)
    have hshared := hmem other
    rw [← hpath] at hshared
    exact h (hmem resource) hshared
  · intro hne path hpath hother
    obtain ⟨operation, -, rfl⟩ := List.mem_map.mp hpath
    obtain ⟨operation', -, heq⟩ := List.mem_map.mp hother
    obtain ⟨rfl, hsubject⟩ := modulePath_inj heq.symm
    by_cases hlist : operation = .list
    · rw [if_pos hlist, if_pos hlist] at hsubject
      exact hne hsubject
    · rw [if_neg hlist, if_neg hlist] at hsubject
      exact hne (congrArg Naming.plural hsubject)

theorem paths_nodup_iff {config : ApiConfig} : (paths config).Nodup ↔ config.ModulesApart := by
  have hoperations : Operation.all.Nodup := by decide
  exact nodup_flatMap_iff
    (fun resource => hoperations.map fun _ _ heq => (modulePath_inj heq).1) fun _ _ => disjoint_modulePaths

end Endpoint

theorem OpenApi.artifact_eq_ok {config : ApiConfig} {serverUrl : Option String} {made : Artifact}
    (h : OpenApi.artifact config serverUrl = .ok made) : made.StaysAt "openapi.json" := by
  obtain ⟨document, -, h⟩ := Outcome.bind_eq_ok.mp h
  split at h
  · obtain rfl := Except.ok.inj h
    exact ⟨rfl, by decide, fun _ _ hdetail => nomatch hdetail⟩
  · cases h

/-! ### Whole runs -/

section Run

variable {config : ApiConfig} {options : Bundle.Options} {before after : Sequence} {bundle : Bundle}

namespace Bundle

/-- The paths of the artifacts that are made once. -/
def commonPaths (bundle : Bundle) : List String :=
  ["router.py", "types.py"] ++ bundle.openApi.toList.map fun _ => "openapi.json"

theorem commonPaths_nodup (bundle : Bundle) : bundle.commonPaths.Nodup := by
  rw [commonPaths]
  cases bundle.openApi <;> simp

theorem head?_of_mem_commonPaths {path : String} (h : path ∈ bundle.commonPaths) :
    path.toList.head? ∈ [some 'r', some 't', some 'o'] := by
  have hpath : path = "router.py" ∨ path = "types.py" ∨ path = "openapi.json" := by
    rw [commonPaths] at h
    cases hdocument : bundle.openApi <;> simp [hdocument] at h <;> tauto
  rcases hpath with rfl | rfl | rfl <;> decide

end Bundle

/-- What names artifacts by the path at which they stay names them so in a run; migrations may be
named in other ways. -/
theorem Generated.map_artifacts (h : Generated config options before bundle after)
    {name : Artifact → String}
    (hname : ∀ artifact path, artifact.StaysAt path → name artifact = path) :
    bundle.artifacts.map name =
      Schema.paths config ++ bundle.migrations.map name ++ Endpoint.paths config ++
        bundle.commonPaths := by
  have hschemas : bundle.schemas.map name = Schema.paths config := by
    apply Outcome.mapM_map_eq h.schemas
    intro resource _ artifact hartifact
    exact hname _ _ (Schema.artifact_eq_ok hartifact)
  have hendpoints : bundle.endpoints.map name = Endpoint.paths config := by
    rw [h.endpoints, Endpoint.artifacts, List.map_flatMap]
    refine List.flatMap_congr fun resource _ => ?_
    rw [List.map_map]
    apply List.map_congr_left
    intro operation _
    exact hname _ _ (Endpoint.artifact_staysAt resource operation)
  have hopenApi : bundle.openApi.toList.map name =
      bundle.openApi.toList.map fun _ => "openapi.json" := by
    apply List.map_congr_left
    intro document hdocument
    exact hname _ _ (OpenApi.artifact_eq_ok (h.openApi document (by simpa using hdocument)))
  have hrouter : name bundle.router = "router.py" := by
    rw [h.router]
    exact hname _ _ ⟨rfl, by decide, fun _ _ hdetail => nomatch hdetail⟩
  have htypes : name bundle.types = "types.py" := by
    rw [h.types]
    exact hname _ _ ⟨rfl, by decide, fun _ _ hdetail => nomatch hdetail⟩
  simp only [Bundle.artifacts, Bundle.commonPaths, List.map_append, hschemas, hendpoints, hopenApi,
    List.map_cons, List.map_nil, hrouter, htypes, List.append_assoc]

/-- As far as migrations are named apart, all artifacts are exactly if the modules are. -/
theorem Generated.nodup_map_iff (h : Generated config options before bundle after)
    {name : Artifact → String}
    (hname : ∀ artifact path, artifact.StaysAt path → name artifact = path)
    (hnodup : (bundle.migrations.map name).Nodup)
    (hheads : ∀ text ∈ bundle.migrations.map name, text.toList.head? = some 'm') :
    (bundle.artifacts.map name).Nodup ↔ config.ModulesApart := by
  rw [h.map_artifacts hname]
  constructor
  · intro hall
    exact Endpoint.paths_nodup_iff.mp hall.of_append_left.of_append_right
  · intro hapart
    rw [List.nodup_append', List.nodup_append', List.nodup_append']
    refine ⟨⟨⟨Schema.paths_nodup hapart, hnodup, disjoint_of_heads fun a ha b hb => ?_⟩,
      Endpoint.paths_nodup_iff.mpr hapart, disjoint_of_heads fun a ha b hb => ?_⟩,
      bundle.commonPaths_nodup, disjoint_of_heads fun a ha b hb => ?_⟩
    · rw [Schema.head?_of_mem_paths ha, hheads b hb]
      decide
    · rw [Endpoint.head?_of_mem_paths hb]
      rcases List.mem_append.mp ha with ha | ha
      · rw [Schema.head?_of_mem_paths ha]
        decide
      · rw [hheads a ha]
        decide
    · intro heq
      have hother := Bundle.head?_of_mem_commonPaths hb
      rw [← heq] at hother
      rcases List.mem_append.mp ha with ha | ha
      · rcases List.mem_append.mp ha with ha | ha
        · rw [Schema.head?_of_mem_paths ha] at hother
          exact absurd hother (by decide)
        · rw [hheads a ha] at hother
          exact absurd hother (by decide)
      · rw [Endpoint.head?_of_mem_paths ha] at hother
        exact absurd hother (by decide)

end Run

end ApiScaffold
