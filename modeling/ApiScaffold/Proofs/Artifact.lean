import Mathlib
import ApiScaffold.Artifact.Basic

/-! Where artifacts go, what they are known by and which resource they are made for. All but migrations go
to the same path in every run and are known by it. -/

namespace ApiScaffold

theorem someText_of_ne {text : String} (h : text ≠ "") : someText (some text) = some text := by
  simp [someText, Option.filter, h]

theorem ne_empty_of_head? {text : String} {c : Char} (h : text.toList.head? = some c) :
    text ≠ "" := by
  rintro rfl
  cases h

theorem MigrationKind.name_injective : Function.Injective MigrationKind.name := by
  intro left right h
  cases left <;> cases right <;> first | rfl | exact absurd h (by decide)

namespace Artifact

/-- The resource that an artifact is made for. -/
def owner? (artifact : Artifact) : Option String :=
  match artifact.detail with
  | .plain => none
  | .schema resource _ => some resource
  | .endpoint spec => some spec.resource
  | .migration _ resource => resource

variable {artifact : Artifact} {path : String}

/-- The artifact is no migration and goes to a path. -/
structure StaysAt (artifact : Artifact) (path : String) : Prop where
  path_eq : artifact.path = some path
  path_ne : path ≠ ""
  detail_ne : ∀ kind resource, artifact.detail ≠ .migration kind resource

theorem place_of_path (hpath : artifact.path = some path) (hne : path ≠ "") :
    artifact.place = path := by
  rw [place, hpath, someText_of_ne hne, Option.getD_some]

theorem StaysAt.place (h : artifact.StaysAt path) : artifact.place = path :=
  place_of_path h.path_eq h.path_ne

theorem StaysAt.key (h : artifact.StaysAt path) : artifact.key = path := by
  rw [Artifact.key]
  split
  · rename_i kind resource hdetail
    exact absurd hdetail (h.detail_ne kind resource)
  · exact h.place

end Artifact

end ApiScaffold
