import Mathlib
import ApiScaffold.Proofs.Check.Fields
import ApiScaffold.Proofs.Schema.Mapping

/-! The bounds of a field, from its declaration to its constraints and its description in the API document.
A length is cut off to an integer on the way. The checks let only those pass that lose nothing by it, and
only bounds that are in order. -/

namespace ApiScaffold

namespace Number

/-- Both numbers have an exact value, and it is the same. -/
def SameValue (m n : Number) : Prop := ∃ q : Rat, m.value? = some q ∧ n.value? = some q

/-- Both numbers have an exact value, and the first one is not greater. -/
def UpTo (m n : Number) : Prop := ∃ p q : Rat, m.value? = some p ∧ n.value? = some q ∧ p ≤ q

variable {m n lower upper : Number}

theorem exists_value? (h : n.isFinite = true) : ∃ q, n.value? = some q := by
  cases n with
  | int i => exact ⟨i, rfl⟩
  | real x =>
      cases x with
      | finite negative significand exponent => exact ⟨_, rfl⟩
      | infinity negative => cases h
      | notANumber => cases h

theorem sameValue_self (h : n.isFinite = true) : n.SameValue n :=
  (exists_value? h).imp fun _ hvalue => ⟨hvalue, hvalue⟩

theorem upTo_of_not_exceeds (hlower : lower.isFinite = true) (hupper : upper.isFinite = true)
    (h : lower.exceeds upper = false) : lower.UpTo upper := by
  obtain ⟨p, hp⟩ := exists_value? hlower
  obtain ⟨q, hq⟩ := exists_value? hupper
  rw [exceeds, hp, hq] at h
  exact ⟨p, q, hp, hq, not_lt.mp (of_decide_eq_false h)⟩

/-- The order of two numbers is that of their values. -/
theorem UpTo.of_sameValue (h : lower.UpTo upper) (hlower : m.SameValue lower) (hupper : n.SameValue upper) :
    m.UpTo n := by
  obtain ⟨p, q, hp, hq, hle⟩ := h
  obtain ⟨p', hm, hp'⟩ := hlower
  obtain ⟨q', hn, hq'⟩ := hupper
  obtain rfl := Option.some.inj (hp.symm.trans hp')
  obtain rfl := Option.some.inj (hq.symm.trans hq')
  exact ⟨p, q, hm, hn, hle⟩

theorem truncate_of_value? {q : Rat} (h : n.value? = some q) : n.truncate = .ok (q.num.tdiv q.den) := by
  cases n with
  | int i =>
      obtain rfl := Option.some.inj h
      rw [truncate, Rat.num_intCast, Rat.den_intCast, Nat.cast_one, Int.tdiv_one]
  | real x =>
      cases x with
      | finite negative significand exponent =>
          obtain rfl := Option.some.inj h
          rfl
      | infinity negative => cases h
      | notANumber => cases h

/-- A count is cut off without loss. -/
theorem truncate_of_isCount (h : Check.isCount n = true) :
    ∃ count : Nat, n.truncate = .ok count ∧ n.value? = some (count : Rat) := by
  rw [Check.isCount] at h
  cases hvalue : n.value? with
  | none =>
      rw [hvalue] at h
      cases h
  | some q =>
      rw [hvalue, Bool.and_eq_true, beq_iff_eq, decide_eq_true_eq] at h
      obtain ⟨hden, hnum⟩ := h
      obtain ⟨count, hcount⟩ := Int.eq_ofNat_of_zero_le hnum
      refine ⟨count, ?_, congrArg some ?_⟩
      · rw [truncate_of_value? hvalue, hden, Nat.cast_one, Int.tdiv_one, hcount]
      · rw [← Rat.den_eq_one_iff q |>.mp hden, hcount, Int.cast_natCast]

end Number

/-! ### Checked bounds -/

namespace Schema.BoundKind

/-- The types whose bounds are of a kind. -/
def types : BoundKind → List FieldType
  | length => [.string, .text]
  | value => [.integer, .number]

variable {kind : BoundKind} {type : FieldType}

theorem bounds_of_mem_types (h : type ∈ kind.types) : (typeEntry type).bounds = some kind := by
  revert h
  cases kind <;> cases type <;> decide

theorem pattern_of_mem_types (h : type ∈ kind.types) : (typeEntry type).pattern = none := by
  revert h
  cases kind <;> cases type <;> decide

theorem isLength_isNumeric_of_mem_types (h : type ∈ kind.types) :
    Check.isLengthType type = (kind == length) ∧ Check.isNumericType type = (kind == value) := by
  revert h
  cases kind <;> cases type <;> decide

end Schema.BoundKind

open Schema (BoundKind)

namespace Check

variable {place : Place} {field : FieldSpec} {findings : List Finding} {kind : BoundKind}

theorem exceeds_of_clean_reversed (h : Clean (reversed place field)) :
    ∀ lower ∈ field.lower, ∀ upper ∈ field.upper, lower.exceeds upper = false := by
  intro lower hlower upper hupper
  rw [reversed, hlower, hupper] at h
  by_contra hexceeds
  rw [Bool.not_eq_false] at hexceeds
  dsimp only at h
  rw [if_pos hexceeds] at h
  exact not_clean_cons rfl h

/-- The bounds of a type that has some are looked at in two ways: against each other, and each by itself
where they are lengths. -/
theorem clean_of_boundsOf (htype : field.type ∈ kind.types) (h : boundsOf place field = .ok findings)
    (hclean : Clean findings) :
    Clean (reversed place field) ∧ (kind = .length → ∀ bound ∈ field.bounds, isCount bound = true) := by
  cases boundsFound_of_boundsOf h with
  | nothing hnone =>
      have hlower : field.lower = none := by
        rw [FieldSpec.bounds, List.append_eq_nil_iff, Option.toList_eq_nil_iff] at hnone
        exact hnone.1
      rw [reversed, hlower, hnone]
      exact ⟨hclean, fun _ _ hbound => absurd hbound List.not_mem_nil⟩
  | infinite hne => exact absurd hclean (not_clean_cons rfl)
  | ignored hne hfinite hlength hnumeric =>
      obtain ⟨hislength, hisnumeric⟩ := BoundKind.isLength_isNumeric_of_mem_types htype
      cases kind with
      | length => exact absurd (hislength.symm.trans hlength) (by decide)
      | value => exact absurd (hisnumeric.symm.trans hnumeric) (by decide)
  | judged hfinite hused =>
      obtain ⟨hreversed, hlengths⟩ := clean_append.mp hclean
      refine ⟨hreversed, fun hkind bound hbound => ?_⟩
      rw [badLengths, (BoundKind.isLength_isNumeric_of_mem_types htype).1, hkind,
        if_pos (by decide)] at hlengths
      by_contra hcount
      have hmem : bound ∈ field.bounds.filter fun bound => !isCount bound :=
        List.mem_filter.mpr ⟨hbound, by simpa using hcount⟩
      exact not_clean_of_mem (List.mem_map_of_mem hmem) rfl hlengths

end Check

/-- What the checks make certain about the bounds of a field. -/
structure FieldSpec.SoundBounds (field : FieldSpec) (kind : BoundKind) : Prop where
  finite : ∀ bound ∈ field.bounds, bound.isFinite = true
  ordered : ∀ lower ∈ field.lower, ∀ upper ∈ field.upper, lower.UpTo upper
  counts : kind = .length → ∀ bound ∈ field.bounds, Check.isCount bound = true

theorem ApiConfig.Accepted.soundBounds {config : ApiConfig} (h : config.Accepted) {resource : ResourceSpec}
    (hresource : resource ∈ config.resources) {field : FieldSpec} (hfield : field ∈ resource.fields)
    {kind : BoundKind} (htype : field.type ∈ kind.types) : field.SoundBounds kind := by
  obtain ⟨findings, hfindings, hclean⟩ := h.bounds
  obtain ⟨ofField, hofField, hcleanField⟩ := Check.exists_clean_onField hfindings hclean hresource hfield
  obtain ⟨hreversed, hcounts⟩ := Check.clean_of_boundsOf htype hofField hcleanField
  have hfinite := Check.bounds_finite_of_clean hofField hcleanField
  refine ⟨hfinite, fun lower hlower upper hupper => ?_, hcounts⟩
  apply Number.upTo_of_not_exceeds
  · exact hfinite lower (List.mem_append_left _ (Option.mem_toList.mpr hlower))
  · exact hfinite upper (List.mem_append_right _ (Option.mem_toList.mpr hupper))
  · exact Check.exceeds_of_clean_reversed hreversed lower hlower upper hupper

/-! ### Stated bounds -/

namespace Schema

/-- What a lower and an upper bound are called. -/
structure BoundNames where
  lower : String
  upper : String

/-- Entries for a lower and an upper bound, as far as there are any. -/
def BoundNames.entries {α : Type} (names : BoundNames) (state : Number → α) (lower upper : Option Number) :
    List (String × α) :=
  (lower.map fun bound => (names.lower, state bound)).toList
    ++ (upper.map fun bound => (names.upper, state bound)).toList

/-- The arguments of an attribute that state its bounds. -/
def BoundKind.arguments : BoundKind → BoundNames
  | length => ⟨"min_length", "max_length"⟩
  | value => ⟨"ge", "le"⟩

/-- The members of a description in the API document that state bounds. -/
def BoundKind.members : BoundKind → BoundNames
  | length => ⟨"minLength", "maxLength"⟩
  | value => ⟨"minimum", "maximum"⟩

/-- Whether a member of a description states a bound, of any kind. -/
def isBoundMember (member : String × Json) : Bool :=
  ["minLength", "maxLength", "minimum", "maximum"].contains member.1

/-- Constraints and members state a lower and an upper bound and nothing else, each under the name it has
there. They are the declared ones: each is there exactly if it is declared, and of the same value. Lengths
are counts, and the bounds are in order. -/
structure KeepsBounds (kind : BoundKind) (field : FieldSpec) (constraints : List Constraint)
    (members : List (String × Json)) (lower upper : Option Number) : Prop where
  constraints : constraints.map (fun c => (c.argument, c.value)) =
    kind.arguments.entries Scalar.number lower upper
  members : members = kind.members.entries Json.number lower upper
  lower_declared : Option.Rel Number.SameValue lower field.lower
  upper_declared : Option.Rel Number.SameValue upper field.upper
  counts : kind = .length → ∀ bound ∈ lower.toList ++ upper.toList, ∃ count : Nat, bound = .int count
  ordered : ∀ least ∈ lower, ∀ greatest ∈ upper, least.UpTo greatest

/-- Of the members of a description, those that state bounds are the bounds it is given. -/
theorem filter_apiSchemaOf (field : FieldSpec) (bounds : List Constraint) :
    (apiSchemaOf field bounds).filter isBoundMember = bounds.filterMap Constraint.apiMember? := by
  have htype : (typeEntry field.type).apiSchema.filter isBoundMember = [] := by
    cases field.type <;> rfl
  have hchoices : (if field.type = .choice then [("enum", Json.texts field.choiceList)] else []).filter
      isBoundMember = [] := by
    split <;> rfl
  have hbounds : (bounds.filterMap Constraint.apiMember?).filter isBoundMember =
      bounds.filterMap Constraint.apiMember? := by
    rw [List.filter_eq_self]
    intro member hmember
    obtain ⟨constraint, -, hconstraint⟩ := List.mem_filterMap.mp hmember
    cases constraint <;> cases hconstraint <;> rfl
  have hdefault : (field.declaredDefault.map fun d => ("default", scalarJson d)).toList.filter
      isBoundMember = [] := by
    cases field.declaredDefault <;> rfl
  have hdescription : ((someText field.description).map fun d => ("description", Json.text d)).toList.filter
      isBoundMember = [] := by
    cases someText field.description <;> rfl
  rw [apiSchemaOf, List.filter_append, List.filter_append, List.filter_append, List.filter_append, htype,
    hchoices, hbounds, hdefault, hdescription, List.nil_append, List.nil_append, List.append_nil,
    List.append_nil]

/-- A bound that is a count makes a constraint that states the count. -/
theorem constraintOf_of_isCount (make : Int → Constraint) {bound : Option Number}
    (h : ∀ n ∈ bound, Check.isCount n = true) :
    ∃ count : Option Nat, constraintOf make bound = .ok (count.map fun n : Nat => make n).toList ∧
      Option.Rel Number.SameValue (count.map fun n : Nat => .int n) bound := by
  cases bound with
  | none => exact ⟨none, rfl, .none⟩
  | some declared =>
      obtain ⟨count, htruncate, hvalue⟩ := Number.truncate_of_isCount (h declared rfl)
      refine ⟨some count, ?_, .some ⟨count, ?_, hvalue⟩⟩
      · rw [constraintOf, lengthOf, htruncate]
        rfl
      · rw [Number.value?, Int.cast_natCast]

theorem sameValue_self_of_isFinite {bound : Option Number} (h : ∀ n ∈ bound, n.isFinite = true) :
    Option.Rel Number.SameValue bound bound := by
  cases bound with
  | none => exact .none
  | some n => exact .some (Number.sameValue_self (h n rfl))

/-- Bounds of the same values as those of a declaration are in order if those are. -/
theorem ordered_of_sameValue {declaredLower declaredUpper lower upper : Option Number}
    (hlower : Option.Rel Number.SameValue lower declaredLower)
    (hupper : Option.Rel Number.SameValue upper declaredUpper)
    (h : ∀ least ∈ declaredLower, ∀ greatest ∈ declaredUpper, least.UpTo greatest) :
    ∀ least ∈ lower, ∀ greatest ∈ upper, least.UpTo greatest := by
  intro least hleast greatest hgreatest
  cases hleast
  cases hgreatest
  cases hlower with
  | some hsameLower =>
      cases hupper with
      | some hsameUpper => exact (h _ rfl _ rfl).of_sameValue hsameLower hsameUpper

/-- Sound bounds make constraints that keep them. -/
theorem exists_keepsBounds {kind : BoundKind} {field : FieldSpec} (htype : field.type ∈ kind.types)
    (h : field.SoundBounds kind) :
    ∃ bounds lower upper, boundConstraints field = .ok bounds ∧
      KeepsBounds kind field bounds (bounds.filterMap Constraint.apiMember?) lower upper := by
  obtain ⟨hfinite, hordered, hcounts⟩ := h
  simp only [FieldSpec.bounds, List.mem_append, Option.mem_toList] at hfinite hcounts
  rw [boundConstraints, BoundKind.bounds_of_mem_types htype]
  cases kind with
  | length =>
      have hcount := hcounts rfl
      obtain ⟨lower, hlower, hsameLower⟩ :=
        constraintOf_of_isCount .minLength fun n hn => hcount n (Or.inl hn)
      obtain ⟨upper, hupper, hsameUpper⟩ :=
        constraintOf_of_isCount .maxLength fun n hn => hcount n (Or.inr hn)
      refine ⟨(lower.map fun n : Nat => .minLength n).toList ++ (upper.map fun n : Nat => .maxLength n).toList,
        lower.map fun n : Nat => .int n, upper.map fun n : Nat => .int n, ?_, ?_, ?_, hsameLower, hsameUpper,
        fun _ bound hbound => ?_, ordered_of_sameValue hsameLower hsameUpper hordered⟩
      · rw [hlower, hupper]
        rfl
      · cases lower <;> cases upper <;> rfl
      · cases lower <;> cases upper <;> rfl
      · rcases List.mem_append.mp hbound with hmem | hmem
        · obtain ⟨count, -, heq⟩ := Option.mem_map.mp (Option.mem_toList.mp hmem)
          exact ⟨count, heq.symm⟩
        · obtain ⟨count, -, heq⟩ := Option.mem_map.mp (Option.mem_toList.mp hmem)
          exact ⟨count, heq.symm⟩
  | value =>
      refine ⟨_, field.lower, field.upper, rfl, ?_, ?_,
        sameValue_self_of_isFinite fun n hn => hfinite n (Or.inl hn),
        sameValue_self_of_isFinite fun n hn => hfinite n (Or.inr hn), ?_, hordered⟩
      · cases field.lower <;> cases field.upper <;> rfl
      · cases field.lower <;> cases field.upper <;> rfl
      · intro hkind
        cases hkind

end Schema

/-- **Bounds are stated as they are declared.** A field of an accepted configuration whose type has bounds can
be resolved. Its constraints and its description then state the same bounds: each that is declared, of
exactly the declared value, and no other. Lengths are counts, and a lower bound is at most the upper one. -/
theorem bounds_kept {config : ApiConfig} (h : config.Accepted) {resource : ResourceSpec}
    (hresource : resource ∈ config.resources) {field : FieldSpec} (hfield : field ∈ resource.fields)
    {kind : BoundKind} (htype : field.type ∈ kind.types) :
    ∃ mapping lower upper, Schema.mapField field = .ok mapping ∧
      Schema.KeepsBounds kind field mapping.constraints (mapping.apiSchema.filter Schema.isBoundMember)
        lower upper := by
  obtain ⟨mapping, hmapping⟩ := h.exists_mapField hresource hfield
  obtain ⟨bounds, lower, upper, hbounds, hkeeps⟩ :=
    Schema.exists_keepsBounds htype (h.soundBounds hresource hfield htype)
  obtain ⟨-, -, described, hdescribed, hschema⟩ := Schema.mapField_eq_ok hmapping
  obtain ⟨stated, hstated, hconstraints⟩ := Schema.mapField_constraints_eq hmapping
  obtain rfl := Except.ok.inj (hbounds.symm.trans hdescribed)
  obtain rfl := Except.ok.inj (hbounds.symm.trans hstated)
  refine ⟨mapping, lower, upper, hmapping, ?_⟩
  rw [hschema, Schema.filter_apiSchemaOf, hconstraints, BoundKind.pattern_of_mem_types htype,
    Option.toList_none, List.map_nil, List.append_nil]
  exact hkeeps

/-! ### A guestbook -/

namespace Guestbook

/-- Eighty, as a double. -/
def eighty : Number := .real (Binary64.ofFraction false 80 1)

/-- A message has at least one character and at most eighty. -/
def message : FieldSpec :=
  { name := "message", type := .text, lower := some (.int 1), upper := some eighty }

/-- A rating is at most four and a half. -/
def rating : FieldSpec :=
  { name := "rating", type := .number, upper := some (.real (Binary64.ofFraction false 9 2)) }

def entry : ResourceSpec := { name := "Entry", fields := [message, rating] }

def config : ApiConfig := { name := "Guestbook", resources := [entry] }

end Guestbook

/-- The bounds of a guestbook are kept, those of lengths and those of values. -/
theorem bounds_kept_guestbook :
    Guestbook.config.Accepted ∧ Guestbook.entry ∈ Guestbook.config.resources ∧
    (∃ mapping lower upper, Schema.mapField Guestbook.message = .ok mapping ∧
      Schema.KeepsBounds .length Guestbook.message mapping.constraints
        (mapping.apiSchema.filter Schema.isBoundMember) lower upper) ∧
    ∃ mapping lower upper, Schema.mapField Guestbook.rating = .ok mapping ∧
      Schema.KeepsBounds .value Guestbook.rating mapping.constraints
        (mapping.apiSchema.filter Schema.isBoundMember) lower upper := by
  have haccepted : Guestbook.config.Accepted := by decide +kernel
  have hentry : Guestbook.entry ∈ Guestbook.config.resources := List.mem_singleton.mpr rfl
  exact ⟨haccepted, hentry, bounds_kept haccepted hentry List.mem_cons_self (by decide),
    bounds_kept haccepted hentry (List.mem_cons_of_mem _ List.mem_cons_self) (by decide)⟩

end ApiScaffold
