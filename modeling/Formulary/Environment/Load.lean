import Formulary.Event

/-!
# Loading environments

An environment is written as a JSON object whose members are truth values and texts.  The document
is read by `parse`, which also says what is wrong with a document that is no JSON.  The entries of
an object are taken in the order in which they are visited, and those of another kind are left out
with a warning.  A document that is no JSON, or no object, has no bindings and one warning.
-/

namespace Formulary

/-- The value that is written directly as a truth value or a text. -/
def Json.value? : Json → Option Value
  | .boolean b => some (.bool b)
  | .string s => some (.str s)
  | _ => none

namespace Environment

/-- An environment with the warnings about its document and the log of its loading. -/
structure Loaded where
  environment : Environment
  warnings : Array Warning
  log : Log
deriving DecidableEq

namespace Loaded

/-- Nothing loaded. -/
def nothing : Loaded := ⟨∅, #[], #[]⟩

/-- Raises a warning. -/
def warn (l : Loaded) (w : Warning) : Loaded :=
  ⟨l.environment, l.warnings.push w, l.log.push (.environmentProblem w)⟩

/-- Binds a name. -/
def bind (l : Loaded) (name : String) (v : Value) : Loaded :=
  ⟨l.environment.insert name v, l.warnings, l.log⟩

/-- Binds the name of an entry, or warns about it. -/
def entry (l : Loaded) (name : String) (json : Json) : Loaded :=
  match json.value? with
  | some v => l.bind name v
  | none => l.warn (.unsupportedValue name json.kind)

/-- Reports the numbers of bindings and warnings. -/
def report (l : Loaded) : Loaded :=
  ⟨l.environment, l.warnings,
    l.log.push (.environmentLoaded l.environment.size l.warnings.size)⟩

/-- Loads the entries of an object, one after the other. -/
def ofEntries (entries : List (String × Json)) : Loaded :=
  (entries.foldl (fun l (name, json) => l.entry name json) nothing).report

/-- Loads what a document was read as. -/
def ofParsed : Except String Json → Loaded
  | .error reason => nothing.warn (.malformed reason)
  | .ok (.object entries) => ofEntries entries
  | .ok json => nothing.warn (.notAnObject json.kind)

end Loaded

/-- Loads a document that `parse` reads. -/
def load (parse : String → Except String Json) (document : String) : Loaded :=
  Loaded.ofParsed (parse document)

end Environment

end Formulary
