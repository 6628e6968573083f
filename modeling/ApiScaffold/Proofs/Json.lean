import Mathlib
import ApiScaffold.Json

/-! What occurs in a JSON document at any depth: numbers, which decide whether the document can be written,
and references. What is known of every part is known of the whole. -/

namespace ApiScaffold.Json

/-! ### Numbers -/

section Numbers

/-- Every number in a document is of some kind. -/
def AllNumbers (kind : Number → Prop) (json : Json) : Prop := ∀ n ∈ json.numbers, kind n

variable {kind : Number → Prop}

/-- A document can be written where its numbers can. -/
theorem hasText_iff {json : Json} :
    json.hasText = true ↔ AllNumbers (fun n => n.hasText = true) json := List.all_eq_true

theorem itemNumbers_eq (items : List Json) : itemNumbers items = items.flatMap numbers := by
  induction items with
  | nil => rfl
  | cons item rest ih => rw [itemNumbers, ih, List.flatMap_cons]

theorem memberNumbers_eq (members : List (String × Json)) :
    memberNumbers members = members.flatMap fun member => numbers member.2 := by
  induction members with
  | nil => rfl
  | cons member rest ih => rw [memberNumbers, ih, List.flatMap_cons]

@[simp]
theorem allNumbers_array {items : List Json} :
    AllNumbers kind (array items) ↔ ∀ item ∈ items, AllNumbers kind item := by
  simp only [AllNumbers, numbers, itemNumbers_eq, List.mem_flatMap]
  exact ⟨fun h item hitem n hn => h n ⟨item, hitem, hn⟩,
    fun h n ⟨item, hitem, hn⟩ => h item hitem n hn⟩

@[simp]
theorem allNumbers_object {members : List (String × Json)} :
    AllNumbers kind (object members) ↔ ∀ member ∈ members, AllNumbers kind member.2 := by
  simp only [AllNumbers, numbers, memberNumbers_eq, List.mem_flatMap]
  exact ⟨fun h member hmember n hn => h n ⟨member, hmember, hn⟩,
    fun h n ⟨member, hmember, hn⟩ => h member hmember n hn⟩

@[simp]
theorem allNumbers_number {n : Number} : AllNumbers kind (number n) ↔ kind n := by
  simp [AllNumbers, numbers]

/-- In a document without numbers they are of any kind. -/
theorem allNumbers_of_isEmpty {json : Json} (h : json.numbers.isEmpty = true) : AllNumbers kind json := by
  rw [AllNumbers, List.isEmpty_iff.mp h]
  exact List.forall_mem_nil _

@[simp]
theorem allNumbers_text (s : String) : AllNumbers kind (text s) := allNumbers_of_isEmpty rfl

@[simp]
theorem allNumbers_texts (items : List String) : AllNumbers kind (texts items) := by
  rw [texts, allNumbers_array, List.forall_mem_map]
  exact fun item _ => allNumbers_text item

end Numbers

/-! ### References -/

/-- The name of the member that refers to another place. -/
def referenceKey : String := "$ref"

mutual

/-- What stands under the name of references, at any depth. -/
def references : Json → List Json
  | .array items => itemReferences items
  | .object members => memberReferences members
  | _ => []

def itemReferences : List Json → List Json
  | [] => []
  | item :: rest => references item ++ itemReferences rest

def memberReferences : List (String × Json) → List Json
  | [] => []
  | (name, content) :: rest =>
    (if name = referenceKey then [content] else []) ++ references content ++ memberReferences rest

end

/-- Every reference in a document is of some kind. -/
def AllReferences (kind : Json → Prop) (json : Json) : Prop := ∀ content ∈ json.references, kind content

variable {kind : Json → Prop}

@[simp]
theorem allReferences_bool (b : Bool) : AllReferences kind (bool b) :=
  fun _ h => absurd h List.not_mem_nil

end ApiScaffold.Json
