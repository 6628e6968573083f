import Mathlib
import ApiScaffold.Proofs.Check.Accepted
import ApiScaffold.Proofs.Check.Topic
import ApiScaffold.Proofs.Relations.Completeness

/-! The check for circles of relations is sound: a warning names a circle that can be walked along the
relations of fields, and no two warnings name the same members. The first is what every move of the
search keeps of the recorded cycles, the second what recording keeps of them. -/

namespace ApiScaffold

/-! ### Members of recorded cycles -/

namespace CycleSearch

variable {graph : Graph} {search next : CycleSearch}

/-- No two recorded cycles have the same members. -/
def Unlike (search : CycleSearch) : Prop :=
  search.cycles.Pairwise fun known other => ¬∀ name, name ∈ known ↔ name ∈ other

/-- A cycle is only recorded if its members are new. -/
theorem Unlike.record (h : search.Unlike) (cycle : List String) : (search.record cycle).Unlike := by
  rw [CycleSearch.record]
  split
  · exact h
  · rename_i hnew
    refine List.pairwise_append.mpr ⟨h, List.pairwise_singleton _ _, ?_⟩
    intro known hknown other hother hsame
    rw [List.mem_singleton.mp hother] at hsame
    exact hnew (List.any_eq_true.mpr ⟨known, hknown, sameMembers_iff.mpr fun name => (hsame name).symm⟩)

/-- Every move keeps the recorded cycles unlike each other. -/
theorem Unlike.move (h : search.Unlike) (hmove : Move graph search next) : next.Unlike := by
  cases hmove with
  | leave hstack hlast => exact h
  | close hstack hnext hpath =>
      rename_i frame below node
      have hadvanced : (search.advance frame below).Unlike := h
      exact hadvanced.record _
  | skip hstack hnext hpath hvisited => exact h
  | enter hstack hnext hpath hfresh => exact h

theorem Unlike.searchFrom (h : search.Unlike) (start : String) :
    (searchFrom graph search start).Unlike := by
  rw [CycleSearch.searchFrom]
  split
  · exact h
  · have hentered : (search.enter start).Unlike := h
    exact run_induction (fun _ _ hstate hmove => Unlike.move hstate hmove) graph.size hentered

theorem Unlike.foldl_searchFrom (h : search.Unlike) (starts : List String) :
    (starts.foldl (CycleSearch.searchFrom graph) search).Unlike := by
  induction starts generalizing search with
  | nil => exact h
  | cons first rest ih => exact ih (h.searchFrom first)

end CycleSearch

theorem Graph.cycles_unlike (graph : Graph) :
    graph.cycles.Pairwise fun known other => ¬∀ name, name ∈ known ↔ name ∈ other := by
  have hempty : CycleSearch.Unlike {} := List.Pairwise.nil
  exact hempty.foldl_searchFrom graph.nodes

/-! ### Warnings -/

/-- A circle of relations: it ends where it begins, has two members at least, passes none of them twice,
and from each of its names a field of a resource of that name relates to the next. -/
structure ApiConfig.IsCircle (config : ApiConfig) (cycle : List String) : Prop where
  closed : cycle.head? = cycle.getLast?
  members : ∃ a ∈ cycle, ∃ b ∈ cycle, a ≠ b
  once : cycle.tail.Nodup
  related : cycle.IsChain config.Relates

theorem Graph.IsCircle.relates {config : ApiConfig} {cycle : List String}
    (h : (relationGraph config).IsCircle cycle) : config.IsCircle cycle := by
  obtain ⟨first, inner, rfl, hsome, hnodup, hchain⟩ := h
  obtain ⟨hfirst, hinner⟩ := List.nodup_cons.mp hnodup
  rw [relationGraph_edge_eq] at hchain
  refine ⟨?_, ?_, ?_, hchain⟩
  · rw [List.head?_cons, ← List.cons_append, List.getLast?_append, List.getLast?_singleton,
      Option.some_or]
  · obtain ⟨second, hsecond⟩ := List.exists_mem_of_ne_nil inner hsome
    exact ⟨first, List.mem_cons_self, second,
      List.mem_cons_of_mem _ (List.mem_append_left _ hsecond), fun heq => hfirst (heq ▸ hsecond)⟩
  · rw [List.tail_cons, List.nodup_append]
    refine ⟨hinner, List.nodup_singleton first, fun name hname other hother heq => ?_⟩
    rw [List.mem_singleton.mp hother] at heq
    exact hfirst (heq ▸ hname)

namespace Check

theorem Finding.code_eq_circularRelation {finding : Finding} :
    finding.code = "CIRCULAR_RELATION" ↔ finding.topic = .circularRelations := by
  cases finding with
  | relation place text flaw => cases flaw <;> simp [code, topic, RelationFlaw.code]
  | _ => simp [code, topic]

/-- The issues of a report on circles are those of the findings of their check. -/
theorem report_circularRelations {config : ApiConfig} {report : Report} (h : config.report = .ok report) :
    (report.issues.filter fun issue => issue.code = "CIRCULAR_RELATION") =
      (circularRelations config).map Finding.issue := by
  obtain ⟨findings, hfindings, rfl⟩ := Outcome.map_eq_ok.mp h
  have hmem : Topic.circularRelations ∈ Topic.all := by decide
  have htopic := filter_topic_findingsOn (by decide) hfindings hmem rfl
  rw [← htopic, Check.report, List.filter_map]
  congr 2
  funext finding
  exact decide_eq_decide.mpr Finding.code_eq_circularRelation

/-- **Every warning of a circle is genuine, and no two are alike.** The issues of the code are those of
circles of relations, no two of which have the same members. -/
theorem circularRelations_genuine (config : ApiConfig) :
    ∃ cycles : List (List String), circularRelations config = cycles.map .circularRelation ∧
      (∀ cycle ∈ cycles, config.IsCircle cycle) ∧
      (cycles.Pairwise fun known other => ¬∀ name, name ∈ known ↔ name ∈ other) ∧
      ∀ report, config.report = .ok report →
        (report.issues.filter fun issue => issue.code = "CIRCULAR_RELATION") =
          cycles.map fun cycle => (Finding.circularRelation cycle).issue := by
  refine ⟨(relationGraph config).cycles, rfl, ?_, (relationGraph config).cycles_unlike, ?_⟩
  · intro cycle hcycle
    obtain ⟨_, heq, hcircle⟩ := circularRelations_isCircle (mem_circularRelations.mpr hcycle)
    obtain rfl := Finding.circularRelation.inj heq
    exact hcircle.relates
  · intro report hreport
    rw [report_circularRelations hreport, circularRelations, List.map_map]
    rfl

/-- Posts have an author, and authors a favourite post. -/
def favourites : ApiConfig where
  name := "Blog"
  resources := [
    { name := "Author", fields := [{ name := "favourite", type := .uuid, relation := some "Post.id" }] },
    { name := "Post", fields := [{ name := "author", type := .uuid, relation := some "Author.id" }] }]

theorem circularRelations_genuine_favourites :
    ∃ report, favourites.report = .ok report ∧ favourites.IsCircle ["Author", "Post", "Author"] ∧
      (report.issues.filter fun issue => issue.code = "CIRCULAR_RELATION") =
        [(Finding.circularRelation ["Author", "Post", "Author"]).issue] := by
  have haccepted : favourites.Accepted := by decide +kernel
  have hfound : circularRelations favourites = [.circularRelation ["Author", "Post", "Author"]] := by
    decide +kernel
  obtain ⟨report, hreport, -⟩ := haccepted
  obtain ⟨cycles, hcycles, hgenuine, -, hissues⟩ := circularRelations_genuine favourites
  rw [hfound, eq_comm, List.map_eq_singleton_iff] at hcycles
  obtain ⟨cycle, rfl, heq⟩ := hcycles
  obtain rfl := Finding.circularRelation.inj heq
  exact ⟨report, hreport, hgenuine _ (List.mem_singleton_self _), hissues report hreport⟩

end Check

end ApiScaffold
