import Formulary.Table
import Formulary.Term.Basic

/-!
# Environments

An environment binds identifiers to values.
-/

namespace Formulary

/-- The values bound to names. -/
abbrev Environment := Table Value

end Formulary
