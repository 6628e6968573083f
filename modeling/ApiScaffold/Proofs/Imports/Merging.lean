import Mathlib
import ApiScaffold.Proofs.Imports.Sorted

/-! Merging as an operation on mappings from modules to sets of names. What is merged is the mapping that has the
modules of all parts and under each of them the names of all parts, so order, grouping and repetition of the parts
do not matter. The text of a block is made from its mapping alone, and the mapping is read back from it. -/

namespace ApiScaffold.Imports

open Text

/-! ### Mappings -/

/-- The names under a module, as a set, if the module has an entry. -/
def names? (imports : Imports) (module : String) : Option (Finset String) :=
  (imports.lookup module).map List.toFinset

section Mappings

variable {imports other : Imports} {module name : String}

theorem names?_eq_some_iff (h : imports.IsSet) {names : Finset String} :
    imports.names? module = some names ↔ ∃ entry ∈ imports, entry.1 = module ∧ entry.2.toFinset = names := by
  rw [names?, Option.map_eq_some_iff]
  constructor
  · rintro ⟨listed, hlookup, rfl⟩
    exact ⟨(module, listed), mem_of_lookup hlookup, rfl, rfl⟩
  · rintro ⟨entry, hentry, rfl, rfl⟩
    exact ⟨entry.2, lookup_of_mem h.modules hentry, rfl⟩

theorem isSome_names?_iff (h : imports.IsSet) :
    (imports.names? module).isSome ↔ module ∈ imports.map (·.1) := by
  rw [Option.isSome_iff_exists, List.mem_map]
  constructor
  · rintro ⟨names, hnames⟩
    obtain ⟨entry, hentry, rfl, -⟩ := (names?_eq_some_iff h).mp hnames
    exact ⟨entry, hentry, rfl⟩
  · rintro ⟨entry, hentry, rfl⟩
    exact ⟨_, (names?_eq_some_iff h).mpr ⟨entry, hentry, rfl, rfl⟩⟩

theorem provides_iff (h : imports.IsSet) :
    imports.Provides module name ↔ ∃ names, imports.names? module = some names ∧ name ∈ names := by
  constructor
  · rintro ⟨entry, hentry, hmodule, hname⟩
    exact ⟨_, (names?_eq_some_iff h).mpr ⟨entry, hentry, hmodule, rfl⟩, List.mem_toFinset.mpr hname⟩
  · rintro ⟨names, hnames, hname⟩
    obtain ⟨entry, hentry, hmodule, rfl⟩ := (names?_eq_some_iff h).mp hnames
    exact ⟨entry, hentry, hmodule, List.mem_toFinset.mp hname⟩

/-- Blocks with the same modules and the same names under them stand for the same mapping. -/
theorem names?_ext (h : imports.IsSet) (hother : other.IsSet)
    (hmodules : ∀ module, module ∈ imports.map (·.1) ↔ module ∈ other.map (·.1))
    (hnames : ∀ module name, imports.Provides module name ↔ other.Provides module name) :
    imports.names? = other.names? := by
  funext module
  have hsome := hmodules module
  rw [← isSome_names?_iff h, ← isSome_names?_iff hother] at hsome
  have hsame := hnames module
  simp only [provides_iff h, provides_iff hother] at hsame
  cases hleft : imports.names? module with
  | none =>
      cases hright : other.names? module with
      | none => rfl
      | some names => simp [hleft, hright] at hsome
  | some names =>
      cases hright : other.names? module with
      | none => simp [hleft, hright] at hsome
      | some others =>
          refine congrArg some (Finset.ext fun name => ?_)
          simpa [hleft, hright] using hsame name

end Mappings

/-! ### Merging -/

section Merging

variable {imports : Imports} {module : String}

theorem mem_modules_add {other : String} {names : List String} :
    module ∈ (imports.add other names).map (·.1) ↔ module ∈ imports.map (·.1) ∨ module = other := by
  rw [modules_add]
  split
  · rename_i hmem
    exact (or_iff_left_of_imp fun heq => heq ▸ hmem).symm
  · rw [List.mem_append, List.mem_singleton]

theorem mem_modules_merge {other : Imports} :
    module ∈ (imports.merge other).map (·.1) ↔ module ∈ imports.map (·.1) ∨ module ∈ other.map (·.1) := by
  rw [merge]
  induction other generalizing imports with
  | nil => exact (or_iff_left List.not_mem_nil).symm
  | cons entry rest ih =>
      rw [List.foldl_cons, ih, mem_modules_add, or_assoc, List.map_cons, List.mem_cons]

theorem mem_modules_mergeAll {blocks : List Imports} :
    module ∈ (mergeAll blocks).map (·.1) ↔ ∃ block ∈ blocks, module ∈ block.map (·.1) := by
  rw [← mergeAll_flatten]
  change module ∈ (merge [] blocks.flatten).map (·.1) ↔ _
  rw [mem_modules_merge, List.map_nil, or_iff_right List.not_mem_nil, List.map_flatten, List.mem_flatten]
  simp only [List.mem_map, exists_exists_and_eq_and]

end Merging

/-- A way to merge blocks: a block as it is, or the results of other ways merged. -/
inductive Grouping where
  | block (imports : Imports)
  | merged (parts : List Grouping)

namespace Grouping

/-- The block that comes out. -/
def result : Grouping → Imports
  | .block imports => imports
  | .merged parts => mergeAll (parts.map result)

/-- The blocks that go in. -/
def inputs : Grouping → List Imports
  | .block imports => [imports]
  | .merged parts => parts.flatMap inputs

theorem induction {motive : Grouping → Prop} (block : ∀ imports, motive (.block imports))
    (merged : ∀ parts, (∀ part ∈ parts, motive part) → motive (.merged parts)) (grouping : Grouping) :
    motive grouping :=
  @Grouping.rec motive (fun parts => ∀ part ∈ parts, motive part) block merged (List.forall_mem_nil _)
    (fun _ _ hpart hrest => List.forall_mem_cons.mpr ⟨hpart, hrest⟩) grouping

variable (grouping : Grouping) {module name : String}

theorem isSet_result (h : ∀ block ∈ grouping.inputs, block.IsSet) : grouping.result.IsSet := by
  cases grouping with
  | block imports =>
      rw [result]
      exact h imports (by rw [inputs]; exact List.mem_singleton_self imports)
  | merged parts =>
      rw [result]
      exact isSet_mergeAll _

/-- What merging keeps of single blocks it keeps of all that go in. -/
theorem result_iff (p : Imports → Prop) (hmerge : ∀ blocks, p (mergeAll blocks) ↔ ∃ block ∈ blocks, p block) :
    p grouping.result ↔ ∃ block ∈ grouping.inputs, p block := by
  induction grouping using Grouping.induction with
  | block imports => simp [result, inputs]
  | merged parts ih =>
      rw [result, inputs, hmerge]
      simp only [List.mem_map, List.mem_flatMap, exists_exists_and_eq_and]
      constructor
      · rintro ⟨part, hpart, hp⟩
        obtain ⟨block, hblock, hp⟩ := (ih part hpart).mp hp
        exact ⟨block, ⟨part, hpart, hblock⟩, hp⟩
      · rintro ⟨block, ⟨part, hpart, hblock⟩, hp⟩
        exact ⟨part, hpart, (ih part hpart).mpr ⟨block, hblock, hp⟩⟩

theorem provides_result :
    grouping.result.Provides module name ↔ ∃ block ∈ grouping.inputs, block.Provides module name :=
  grouping.result_iff (fun block => block.Provides module name) fun _ => provides_mergeAll

theorem mem_modules_result :
    module ∈ grouping.result.map (·.1) ↔ ∃ block ∈ grouping.inputs, module ∈ block.map (·.1) :=
  grouping.result_iff (fun block => module ∈ block.map (·.1)) fun _ => mem_modules_mergeAll

theorem mem_modules_result_iff (h : ∀ block ∈ grouping.inputs, block.IsSet) :
    module ∈ grouping.result.map (·.1) ↔ ∃ mapping ∈ grouping.inputs.map names?, (mapping module).isSome := by
  rw [mem_modules_result]
  simp only [List.mem_map (f := names?), exists_exists_and_eq_and]
  exact exists_congr fun block => and_congr_right fun hblock => (isSome_names?_iff (h block hblock)).symm

theorem provides_result_iff (h : ∀ block ∈ grouping.inputs, block.IsSet) :
    grouping.result.Provides module name ↔
      ∃ mapping ∈ grouping.inputs.map names?, ∃ names, mapping module = some names ∧ name ∈ names := by
  rw [provides_result]
  simp only [List.mem_map, exists_exists_and_eq_and]
  exact exists_congr fun block => and_congr_right fun hblock => provides_iff (h block hblock)

/-- **Order, grouping and repetition do not matter.** -/
theorem names?_result_eq {other : Grouping} (h : ∀ block ∈ grouping.inputs, block.IsSet)
    (hother : ∀ block ∈ other.inputs, block.IsSet)
    (hsame : ∀ mapping, mapping ∈ grouping.inputs.map names? ↔ mapping ∈ other.inputs.map names?) :
    grouping.result.names? = other.result.names? := by
  refine names?_ext (grouping.isSet_result h) (other.isSet_result hother) (fun module => ?_) fun module name => ?_
  · rw [mem_modules_result_iff _ h, mem_modules_result_iff _ hother]
    simp only [hsame]
  · rw [provides_result_iff _ h, provides_result_iff _ hother]
    simp only [hsame]

end Grouping

/-! ### Canonical text -/

theorem sortTexts_eq_of_toFinset {names others : List String} (h : names.Nodup) (hothers : others.Nodup)
    (hsame : names.toFinset = others.toFinset) : sortTexts names = sortTexts others := by
  refine eq_of_pairwise_lt (pairwise_sortTexts h) (pairwise_sortTexts hothers) fun name => ?_
  rw [mem_sortTexts, mem_sortTexts, ← List.mem_toFinset, hsame, List.mem_toFinset]

section Canonical

variable {imports other : Imports}

/-- The entries in the order of the text depend on the mapping alone. -/
theorem sorted_eq_of_names? (h : imports.IsSet) (hother : other.IsSet) (hsame : imports.names? = other.names?) :
    sorted imports = sorted other := by
  have hsubset : ∀ {imports other : Imports}, imports.IsSet → other.IsSet → imports.names? = other.names? →
      ∀ made ∈ sorted imports, made ∈ sorted other := by
    intro imports other h hother hsame made hmade
    obtain ⟨entry, hentry, rfl⟩ := mem_sorted.mp hmade
    have hnames := (names?_eq_some_iff h).mpr ⟨entry, hentry, rfl, rfl⟩
    rw [hsame] at hnames
    obtain ⟨found, hfound, hmodule, hset⟩ := (names?_eq_some_iff hother).mp hnames
    refine mem_sorted.mpr ⟨found, hfound, Prod.ext hmodule ?_⟩
    exact sortTexts_eq_of_toFinset (hother.names found hfound) (h.names entry hentry) hset
  exact eq_of_pairwise_lt h.pairwise_sorted hother.pairwise_sorted fun made =>
    ⟨hsubset h hother hsame made, hsubset hother h hsame.symm made⟩

/-- An entry as a line, its names in the order in which they are given. -/
def written (entry : String × List String) : String :=
  if entry.2.isEmpty then "import " ++ entry.1
  else "from " ++ entry.1 ++ " import " ++ String.intercalate ", " entry.2

theorem line_eq_written (module : String) (names : List String) :
    line module names = written (module, sortTexts names) := by
  have hempty : (sortTexts names).isEmpty = names.isEmpty := (List.mergeSort_perm names _).isEmpty_eq
  rw [line, written, hempty]
  rfl

theorem lines_eq (imports : Imports) : imports.lines = (sorted imports).map written := by
  rw [lines, sorted, List.map_map]
  exact List.map_congr_left fun entry _ => line_eq_written entry.1 entry.2

theorem block_eq_of_names? (h : imports.IsSet) (hother : other.IsSet) (hsame : imports.names? = other.names?) :
    imports.block = other.block := by
  rw [block, block, lines_eq, lines_eq, sorted_eq_of_names? h hother hsame]

/-- The entries in the order of the text stand for the same mapping. -/
theorem names?_sorted (h : imports.IsSet) : (sorted imports).names? = imports.names? := by
  have hset : (sorted imports).IsSet :=
    ⟨(List.pairwise_map.mpr h.pairwise_sorted).nodup, fun entry hentry => (h.names_sorted entry hentry).nodup⟩
  refine names?_ext hset h (fun module => ?_) fun _ _ => provides_sorted
  simp only [List.mem_map, mem_sorted, exists_exists_and_eq_and]

end Canonical

/-! ### Reading -/

/-- A text without the marks that stand between the modules and names of a block. Dotted identifiers, of whatever
script and with dots in front or not, are such texts. -/
def IsUnmarked (text : String) : Prop := ' ' ∉ text.toList ∧ ',' ∉ text.toList ∧ '\n' ∉ text.toList

instance (text : String) : Decidable (IsUnmarked text) := inferInstanceAs (Decidable (_ ∧ _ ∧ _))

/-- A block whose modules and names are unmarked. -/
def IsReadable (imports : Imports) : Prop :=
  ∀ entry ∈ imports, IsUnmarked entry.1 ∧ ∀ name ∈ entry.2, IsUnmarked name

instance (imports : Imports) : Decidable imports.IsReadable :=
  inferInstanceAs (Decidable (∀ entry ∈ imports, _))

/-- The module and the names that a line imports; a module as a whole is imported without names. -/
def readLine? (line : String) : Option (String × List String) :=
  match partsAt ' ' line with
  | [opening, module] => if opening = "import" then some (module, []) else none
  | _ => read? line

/-- The entries of a text; empty lines are skipped. -/
def readBlock? (text : String) : Option Imports := ((linesOf text).filter (· ≠ "")).mapM readLine?

/-- The pairs of a module and a name that a block lists. -/
def pairs (imports : Imports) : List (String × String) :=
  imports.flatMap fun entry => entry.2.map (entry.1, ·)

section Reading

variable {entry : String × List String} {imports : Imports} {module name : String}

theorem readLine?_written (hmodule : IsUnmarked entry.1) (hnames : ∀ name ∈ entry.2, IsUnmarked name) :
    readLine? (written entry) = some entry := by
  obtain ⟨module, names⟩ := entry
  cases names with
  | nil =>
      have hparts : partsAt ' ' (written (module, [])) = ["import", module] := by
        have hopening : written (module, []) = "import" ++ String.singleton ' ' ++ module := by
          have hmark : "import " = "import" ++ String.singleton ' ' := by decide
          rw [← hmark]
          rfl
        rw [hopening, partsAt_append (by decide), partsAt_of_not_mem hmodule.1]
      rw [readLine?, hparts]
      rfl
  | cons name rest =>
      have hwritten : written (module, name :: rest) =
          "from " ++ module ++ " import " ++ String.intercalate ", " (name :: rest) := rfl
      have hread : readLine? (written (module, name :: rest)) = read? (written (module, name :: rest)) := by
        rw [readLine?, hwritten, partsAt_from hmodule.1]
      rw [hread, hwritten]
      exact read?_from hmodule.1 (List.cons_ne_nil name rest) fun name hname =>
        ⟨(hnames name hname).1, (hnames name hname).2.1⟩

theorem linesOf_written (hmodule : IsUnmarked entry.1) (hnames : ∀ name ∈ entry.2, IsUnmarked name) :
    linesOf (written entry) = [written entry] := by
  refine partsAt_of_not_mem ?_
  rw [written]
  split
  · exact not_mem_append (by decide) hmodule.2.2
  · refine not_mem_append (not_mem_append (not_mem_append (by decide) hmodule.2.2) (by decide)) ?_
    rw [String.toList_intercalate]
    exact not_mem_intercalate (by decide) (List.forall_mem_map.mpr fun name hname => (hnames name hname).2.2)

theorem written_ne_empty (entry : String × List String) : written entry ≠ "" := by
  rw [written]
  split
  · simp
  · simp

/-- **The entries of a block are read back from its text.** -/
theorem readBlock?_block (h : imports.IsReadable) : readBlock? imports.block = some (sorted imports) := by
  have hsorted : (sorted imports).IsReadable := by
    intro made hmade
    obtain ⟨entry, hentry, rfl⟩ := mem_sorted.mp hmade
    exact ⟨(h entry hentry).1, fun name hname => (h entry hentry).2 name (mem_sortTexts.mp hname)⟩
  have hlines : (linesOf imports.block).filter (· ≠ "") = (sorted imports).map written := by
    -- A block without entries still has one line, which is empty.
    by_cases hne : imports = []
    · rw [hne, block_nil, sorted, List.mergeSort_nil]
      rfl
    · rw [linesOf_block hne, lines_eq, List.filter_eq_self]
      · exact List.forall_mem_map.mpr fun entry _ => by simpa using written_ne_empty entry
      · intro entry hentry
        have hmade := hsorted _ (mem_sorted.mpr ⟨entry, hentry, rfl⟩)
        rw [line_eq_written]
        exact linesOf_written hmade.1 hmade.2
  rw [readBlock?, hlines]
  refine mapM_eq_some_of_forall₂ (List.forall₂_map_left_iff.mpr (List.forall₂_same.mpr ?_))
  exact fun entry hentry => readLine?_written (hsorted entry hentry).1 (hsorted entry hentry).2

theorem mem_pairs : (module, name) ∈ pairs imports ↔ imports.Provides module name := by
  simp only [pairs, Provides, List.mem_flatMap, List.mem_map, Prod.mk.injEq]
  constructor
  · rintro ⟨entry, hentry, _, hname, rfl, rfl⟩
    exact ⟨entry, hentry, rfl, hname⟩
  · rintro ⟨entry, hentry, rfl, hname⟩
    exact ⟨entry, hentry, name, hname, rfl, rfl⟩

/-- Pairs ascend by their modules, and under a module by their names. -/
theorem pairwise_pairs (hmodules : imports.Pairwise fun a b => a.1 < b.1)
    (hnames : ∀ entry ∈ imports, entry.2.Pairwise (· < ·)) :
    (pairs imports).Pairwise fun a b => a.1 < b.1 ∨ a.1 = b.1 ∧ a.2 < b.2 := by
  refine List.pairwise_flatMap.mpr ⟨fun entry hentry => ?_, hmodules.imp fun hlt => ?_⟩
  · exact List.pairwise_map.mpr ((hnames entry hentry).imp fun hlt => Or.inr ⟨rfl, hlt⟩)
  · intro x hx y hy
    obtain ⟨_, -, rfl⟩ := List.mem_map.mp hx
    obtain ⟨_, -, rfl⟩ := List.mem_map.mp hy
    exact Or.inl hlt

end Reading

/-- Merging invents no modules or names. -/
theorem Grouping.isReadable_result (grouping : Grouping) (h : ∀ block ∈ grouping.inputs, block.IsReadable) :
    grouping.result.IsReadable := by
  intro entry hentry
  constructor
  · obtain ⟨block, hblock, hmodule⟩ := grouping.mem_modules_result.mp (List.mem_map_of_mem hentry)
    obtain ⟨original, horiginal, hsame⟩ := List.mem_map.mp hmodule
    exact hsame ▸ (h block hblock original horiginal).1
  · intro name hname
    obtain ⟨block, hblock, original, horiginal, -, hname⟩ :=
      grouping.provides_result.mp ⟨entry, hentry, rfl, hname⟩
    exact (h block hblock original horiginal).2 name hname

/-- **Merging is order-free and its text is canonical.** As an operation on mappings from modules to sets of names,
merging is associative, commutative and idempotent. Blocks that stand for the same mappings, in any order, grouping
and repetition, are merged into one mapping with one text. If modules and names are unmarked, the text lists each
pair of a module and a name that some block has once and in ascending order, and the mapping is read back from it. -/
theorem merging_canonical :
    (∀ a b c : Imports, a.IsSet → b.IsSet → c.IsSet →
      (mergeAll [mergeAll [a, b], c]).names? = (mergeAll [a, mergeAll [b, c]]).names? ∧
        (mergeAll [a, b]).names? = (mergeAll [b, a]).names? ∧ (mergeAll [a, a]).names? = a.names?) ∧
      (∀ grouping other : Grouping, (∀ block ∈ grouping.inputs, block.IsSet) →
        (∀ block ∈ other.inputs, block.IsSet) →
        (∀ mapping, mapping ∈ grouping.inputs.map names? ↔ mapping ∈ other.inputs.map names?) →
          grouping.result.names? = other.result.names? ∧ grouping.result.block = other.result.block) ∧
      ∀ grouping : Grouping, (∀ block ∈ grouping.inputs, block.IsSet) →
        (∀ block ∈ grouping.inputs, block.IsReadable) →
          ∃ entries, readBlock? grouping.result.block = some entries ∧ entries.names? = grouping.result.names? ∧
            (entries.map (·.1)).Pairwise (· < ·) ∧
            ((pairs entries).Pairwise fun a b => a.1 < b.1 ∨ a.1 = b.1 ∧ a.2 < b.2) ∧
            ∀ module name, (module, name) ∈ pairs entries ↔
              ∃ block ∈ grouping.inputs, block.Provides module name := by
  -- The three laws are cases of one: two groupings of the same blocks come to the same mapping.
  have hshape : ∀ grouping other : Grouping, (∀ block ∈ grouping.inputs, block.IsSet) →
      (∀ block, block ∈ grouping.inputs ↔ block ∈ other.inputs) →
        grouping.result.names? = other.result.names? := by
    intro grouping other h hsame
    refine grouping.names?_result_eq h (fun block hblock => h block ((hsame block).mpr hblock)) fun mapping => ?_
    simp only [List.mem_map, hsame]
  refine ⟨fun a b c ha hb hc => ⟨?_, ?_, ?_⟩, ?_, ?_⟩
  · simpa [Grouping.result] using
      hshape (.merged [.merged [.block a, .block b], .block c]) (.merged [.block a, .merged [.block b, .block c]])
        (by simp [Grouping.inputs, ha, hb, hc]) (by simp [Grouping.inputs])
  · simpa [Grouping.result] using hshape (.merged [.block a, .block b]) (.merged [.block b, .block a])
      (by simp [Grouping.inputs, ha, hb]) (by simp [Grouping.inputs, or_comm])
  · simpa [Grouping.result] using hshape (.merged [.block a, .block a]) (.block a)
      (by simp [Grouping.inputs, ha]) (by simp [Grouping.inputs])
  · intro grouping other h hother hsame
    have hnames := grouping.names?_result_eq h hother hsame
    exact ⟨hnames, block_eq_of_names? (grouping.isSet_result h) (other.isSet_result hother) hnames⟩
  · intro grouping h hreadable
    have hset := grouping.isSet_result h
    refine ⟨sorted grouping.result, readBlock?_block (grouping.isReadable_result hreadable), names?_sorted hset,
      List.pairwise_map.mpr hset.pairwise_sorted, pairwise_pairs hset.pairwise_sorted hset.names_sorted,
      fun module name => ?_⟩
    rw [mem_pairs, provides_sorted, Grouping.provides_result]

/-- Names of one module in two blocks, and a module that is imported as a whole. -/
theorem merging_canonical_uuid :
    let uuid : Imports := [("uuid", ["UUID"])]
    let typing : Imports := [("typing", ["Optional", "Any"]), ("os.path", [])]
    let any : Imports := [("typing", ["Any"])]
    (mergeAll [mergeAll [uuid, typing], any]).block = (mergeAll [any, uuid, any, typing]).block ∧
      (mergeAll [mergeAll [uuid, typing], any]).names? = (mergeAll [uuid, mergeAll [typing, any]]).names? ∧
      ∃ entries, readBlock? "import os.path\nfrom typing import Any, Optional\nfrom uuid import UUID" = some entries ∧
        (("typing", "Any") ∈ pairs entries ↔
          ∃ block ∈ [uuid, typing, any], block.Provides "typing" "Any") := by
  intro uuid typing any
  have huuid : uuid.IsSet := ⟨by decide, by decide⟩
  have htyping : typing.IsSet := ⟨by decide, by decide⟩
  have hany : any.IsSet := ⟨by decide, by decide⟩
  have hsets : ∀ block ∈ [uuid, typing, any], block.IsSet := by simp [huuid, htyping, hany]
  have hothers : ∀ block ∈ [any, uuid, any, typing], block.IsSet := by simp [huuid, htyping, hany]
  have hreadable : ∀ block ∈ [uuid, typing, any], block.IsReadable := by decide
  have hnames : sortTexts ["Optional", "Any"] = ["Any", "Optional"] :=
    eq_of_pairwise_lt (pairwise_sortTexts (by decide)) (by decide) fun name => by simp [mem_sortTexts, or_comm]
  have hsorted : sorted (mergeAll [mergeAll [uuid, typing], any]) =
      [("os.path", []), ("typing", ["Any", "Optional"]), ("uuid", ["UUID"])] := by
    have hmerged : mergeAll [mergeAll [uuid, typing], any] =
        [("uuid", ["UUID"]), ("typing", ["Optional", "Any"]), ("os.path", [])] := by decide
    refine eq_of_pairwise_lt (isSet_mergeAll _).pairwise_sorted (by decide) fun made => ?_
    rw [hmerged, mem_sorted]
    have hone : sortTexts ["UUID"] = ["UUID"] := List.mergeSort_singleton _
    have hnone : sortTexts [] = [] := List.mergeSort_nil
    simp only [List.mem_cons, List.not_mem_nil, or_false, exists_eq_or_imp, exists_eq_left, hnames, hone, hnone]
    simp only [eq_comm (a := made)]
    tauto
  have hblock : (mergeAll [mergeAll [uuid, typing], any]).block =
      "import os.path\nfrom typing import Any, Optional\nfrom uuid import UUID" := by
    rw [block, lines_eq, hsorted]
    decide +kernel
  obtain ⟨halgebra, hcanonical, hread⟩ := merging_canonical
  have hinputs : (Grouping.merged [.merged [.block uuid, .block typing], .block any]).inputs =
      [uuid, typing, any] := by simp [Grouping.inputs]
  have hresult : (Grouping.merged [.merged [.block uuid, .block typing], .block any]).result =
      mergeAll [mergeAll [uuid, typing], any] := by simp [Grouping.result]
  have hotherInputs : (Grouping.merged [.block any, .block uuid, .block any, .block typing]).inputs =
      [any, uuid, any, typing] := by simp [Grouping.inputs]
  have hotherResult : (Grouping.merged [.block any, .block uuid, .block any, .block typing]).result =
      mergeAll [any, uuid, any, typing] := by simp [Grouping.result]
  refine ⟨?_, (halgebra uuid typing any huuid htyping hany).1, ?_⟩
  · rw [← hresult, ← hotherResult]
    refine (hcanonical _ _ (hinputs ▸ hsets) (hotherInputs ▸ hothers) fun mapping => ?_).2
    rw [hinputs, hotherInputs]
    simp only [List.map_cons, List.map_nil, List.mem_cons, List.not_mem_nil, or_false]
    tauto
  · obtain ⟨entries, hentries, -, -, -, hpairs⟩ := hread _ (hinputs ▸ hsets) (hinputs ▸ hreadable)
    rw [hinputs] at hpairs
    rw [hresult, hblock] at hentries
    exact ⟨entries, hentries, hpairs "typing" "Any"⟩

end ApiScaffold.Imports
