import Formulary.Environment.Warning
import Formulary.Tape.Cursor
import Formulary.Term.Render

/-!
# Events

What is worth reporting while texts are read and environments are loaded.  An event has a level, a
message and named fields; a log holds events in the order in which they happened.
-/

namespace Formulary

/-- How much an event matters. -/
inductive Level where
  | debug
  | warn
deriving DecidableEq

/-- The name of a level. -/
def Level.name : Level → String
  | .debug => "DEBUG"
  | .warn => "WARN"

/-- Something that happened. -/
inductive Event where
  | nearKeyword (identifier keyword : String)
  | readFailed (reason : String)
  | environmentProblem (warning : Environment.Warning)
  | environmentLoaded (bindings skipped : Nat)
  | formulaParsed (formula : Term) (remaining : String)
  | expressionEvaluated (value : Int) (remaining : String)
  | unparsed (place : Place)
deriving DecidableEq

/-- The events so far, the earliest first. -/
abbrev Log := Array Event

namespace Event

/-- What may be wrong is a warning, what was done is for debugging. -/
def level : Event → Level
  | .nearKeyword .. | .readFailed _ | .environmentProblem _ => .warn
  | .environmentLoaded .. | .formulaParsed .. | .expressionEvaluated .. | .unparsed _ => .debug

/-- The warnings are about a word that is nearly a keyword, an input that could not be read to its
end, and the document of an environment. -/
theorem level_eq_warn_iff {e : Event} :
  e.level = .warn ↔ (∃ identifier keyword, e = .nearKeyword identifier keyword)
    ∨ (∃ reason, e = .readFailed reason) ∨ ∃ warning, e = .environmentProblem warning
  := by cases e <;> simp [level]

/-- The message of an event. -/
def message : Event → String
  | .nearKeyword .. =>
    "identifier differs from a keyword only in case; keywords are upper case"
  | .readFailed _ => "input stream read failed, treating as end of input"
  | .environmentProblem warning => warning.message
  | .environmentLoaded .. => "loaded environment"
  | .formulaParsed .. => "parsed formula"
  | .expressionEvaluated .. => "evaluated expression"
  | .unparsed _ => "input did not parse"

/-- The named details of an event.  The length of a remaining text is in bytes of UTF-8. -/
def fields : Event → List (String × String)
  | .nearKeyword identifier keyword => [("identifier", identifier), ("keyword", keyword)]
  | .readFailed reason => [("error", reason)]
  | .environmentProblem _ => []
  | .environmentLoaded bindings skipped =>
    [("bindings", toString bindings), ("skipped", toString skipped)]
  | .formulaParsed formula remaining =>
    [("formula", formula.render), ("nodes", toString formula.size),
     ("remaining", toString remaining.utf8ByteSize)]
  | .expressionEvaluated value remaining =>
    [("value", toString value), ("remaining", toString remaining.utf8ByteSize)]
  | .unparsed place => [("at", place.inspect)]

end Event

end Formulary
