import Formulary.Arithmetic.Grammar
import Formulary.Document
import Formulary.Environment.Load
import Formulary.Formula.Grammar

/-!
# Reading whole inputs

The grammars applied to whole inputs.  A reading is a value with the text that remains after it,
without the spaces before that text.  `readFormula` reads a formula from any tape and `evaluate` an
expression from a text; each reports what it read, or where it could not read.
-/

namespace Formulary

/-- A value and what remains after it. -/
structure Reading (α : Type) where
  value : α
  remaining : String
deriving DecidableEq

/-- Whether anything remains. -/
def Reading.hasRemaining {α : Type} (r : Reading α) : Bool := !r.remaining.isEmpty

/-- The reading that the outcome of a parser comes to. -/
def finish {α : Type} : Result α × Tape → Except Error (Reading α) × Tape
  | (.success value c, tape) =>
    let (result, tape) := Parser.spaces.run c tape
    let (remaining, tape) := tape.rest result.remaining
    (.ok ⟨value, remaining⟩, tape)
  | (.failure c, tape) => (.error .unparseable, tape.record (.unparsed (tape.place c)))

/-- Reads a formula from a tape. -/
def readFormula (start : Cursor) (tape : Tape) : Except Error (Reading Term) × Tape :=
  match finish (Formula.formula.run start tape) with
  | (.error e, tape) => (.error e, tape)
  | (.ok reading, tape) =>
    (.ok reading, tape.record (.formulaParsed reading.value reading.remaining))

/-- Reads a formula from a text. -/
def parseFormula (text : String) : Except Error (Reading Term) × Log :=
  let (start, tape) := Tape.ofText text
  let (outcome, tape) := readFormula start tape
  (outcome, tape.log)

/-- Reads a formula from a document. -/
def parseDocument (path : String) (document : Document) : Except Error (Reading Term) × Log :=
  match document.tape path with
  | .error e => (.error e, #[])
  | .ok (start, tape) =>
    let (outcome, tape) := readFormula start tape
    (outcome, tape.log)

/-- Evaluates an expression. -/
def evaluate (text : String) : Except Error (Reading Int) × Log :=
  let (start, tape) := Tape.ofText text
  match finish (Arithmetic.expression.run start tape) with
  | (.error e, tape) => (.error e, tape.log)
  | (.ok ⟨.error fault, _⟩, tape) => (.error (.arithmetic fault), tape.log)
  | (.ok ⟨.ok n, remaining⟩, tape) =>
    (.ok ⟨n, remaining⟩, (tape.record (.expressionEvaluated n remaining)).log)

/-- Why a text is not a formula from its beginning to its end. -/
inductive NotWhole where
  | unparsed (text : String) (error : Error)
  | trailing (text remaining : String)
deriving DecidableEq

/-- The text that says so. -/
def NotWhole.message : NotWhole → String
  | .unparsed text error => "failed to parse " ++ Quoted.text text ++ ": " ++ error.message
  | .trailing text remaining =>
    "trailing input " ++ Quoted.text remaining ++ " after parsing " ++ Quoted.text text

/-- Reads a formula that is all of a text. -/
def parseWhole (text : String) : Except NotWhole Term × Log :=
  match parseFormula text with
  | (.error e, log) => (.error (.unparsed text e), log)
  | (.ok reading, log) =>
    if reading.hasRemaining then (.error (.trailing text reading.remaining), log)
    else (.ok reading.value, log)

/-- Loads the environment of a document whose text `parse` reads. -/
def loadEnvironment (parse : String → Except String Json) (path : String) (document : Document) :
    Except Error Environment.Loaded :=
  match document.text with
  | .error fault => .error (.environmentUnreadable path fault)
  | .ok text => .ok (Environment.load parse text)

end Formulary
