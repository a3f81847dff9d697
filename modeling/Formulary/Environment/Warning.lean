import Formulary.Environment.Basic
import Formulary.Json.Basic

/-!
# Warnings about environments

What can be wrong with the document of an environment without keeping it from being used.
-/

namespace Formulary.Environment

/-- A fault in the document of an environment. -/
inductive Warning where
  | malformed (reason : String)
  | notAnObject (found : Json.Kind)
  | unsupportedValue (key : String) (found : Json.Kind)
deriving DecidableEq

/-- The text of a warning.  Why a document is malformed is said in the words of its reader. -/
def Warning.message : Warning → String
  | .malformed reason => "Environment is not valid JSON: " ++ reason
  | .notAnObject found => "Environment must be a JSON object, got " ++ found.name
  | .unsupportedValue key found => "Invalid value type for key '" ++ key ++ "': " ++ found.name

end Formulary.Environment
