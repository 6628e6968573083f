import Mathlib
import ApiScaffold.Proofs.Naming.Words
import ApiScaffold.Proofs.OpenApi.Document

/-! What the references in an API document lead to. They stand in operations, and each one names a
component; components refer to nothing. A property may bear the name of references where a field does,
but what stands under it then is a schema. -/

namespace ApiScaffold.OpenApi

open Json

/-- The names of the components of a document. -/
def componentNames (document : Json) : List String :=
  (((document.member? "components").bind fun json => json.member? "schemas").map fun schemas =>
    schemas.members.map Prod.fst).getD []

section Kinds

variable {kind : Json → Prop}

section Operations

variable {resource : ResourceSpec} {operation : Operation}
  (h : ∀ name ∈ [(Naming.schemaNames resource.name).record, (Naming.schemaNames resource.name).create,
    (Naming.schemaNames resource.name).update], kind (.text ("#/components/schemas/" ++ name)))

include h

end Operations

/-! ### Components -/

section Components

variable {resource : ResourceSpec}
  (h : referenceKey ∈ resource.fieldNames → ∀ members, kind (object members))

include h

end Components

end Kinds

/-! ### Documents -/

theorem componentNames_documentOf (config : ApiConfig) (serverUrl : Option String)
    (schemas : List (String × Json)) :
    componentNames (documentOf config serverUrl schemas) = (Keyed.ofList schemas).map Prod.fst := by
  rw [documentOf]
  cases someText serverUrl <;> rfl

end ApiScaffold.OpenApi
