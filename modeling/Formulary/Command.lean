import Formulary.Reading
import Formulary.Term.Simplify

/-!
# Commands

The two commands and how they answer what they are asked for.  `prop [ENVIRONMENT] FORMULA`
simplifies a formula, which `-` takes from the standard input; `calc EXPRESSION` evaluates an
expression.  The words of a command line are read for what they ask for: a word that begins with a
hyphen is an option, unless it is a hyphen alone or comes after `--`, and the only option asks for
the version.  A misused command says nothing and leaves with status 2.
-/

namespace Formulary.Command

/-- The exit status of a command, what it writes to its two outputs, and the log of what it did. -/
structure Response where
  status : Nat
  output : String
  complaint : String
  log : Log
deriving DecidableEq

namespace Response

/-- A command that did what was asked. -/
def done (output : String) (log : Log) : Response := ⟨0, output, "", log⟩

/-- A command that could not make sense of its input. -/
def refused (output : String) (log : Log) : Response := ⟨1, output, "", log⟩

/-- A command that was misused. -/
def misused : Response := ⟨2, "", "", #[]⟩

/-- A command that was asked for its version. -/
def version (name : String) : Response := done (name ++ " 0.1.0\n") #[]

/-- The lines of a cause, the later ones aligned with the first. -/
def aligned (text : String) : String := "\n       ".intercalate (text.splitOn "\n")

/-- A command that met an error while it did what `context` says. -/
def failed (context : String) (error : Error) (log : Log) : Response :=
  let causes := error.message :: error.cause.toList
  let lines := causes.zipIdx.map fun (cause, i) =>
    "    " ++ toString i ++ ": " ++ aligned cause ++ "\n"
  ⟨1, "", "Error: " ++ context ++ "\n\nCaused by:\n" ++ String.join lines, log⟩

end Response

/-- What a word of a command line is, as long as no `--` came before it. -/
inductive WordKind where
  | plain
  | separator
  | version
  | unknownOption
deriving DecidableEq

/-- The kind of a word.  Of one-letter options that are run together the first decides. -/
def WordKind.of (word : String) : WordKind :=
  match word.toList with
  | ['-', '-'] => .separator
  | '-' :: 'V' :: _ => .version
  | '-' :: _ :: _ => if word = "--version" then .version else .unknownOption
  | _ => .plain

/-- What a command line asks for. -/
inductive Request (α : Type) where
  | version
  | misuse
  | run (request : α)
deriving DecidableEq

/-- A formula and the path of an environment to simplify it under. -/
structure Simplification where
  environment : Option String
  formula : String
deriving DecidableEq

/-- Whether a word may be followed by a second one: there is one, and it is no option. -/
def hasSuccessor : List String → Bool
  | [] => false
  | word :: _ => WordKind.of word = .plain || WordKind.of word = .separator

/-- The request of a command line without further options.  All words are the formula. -/
def formulaOnly (environment formula : Option String) (words : List String) :
    Request Simplification :=
  match formula.toList ++ words with
  | [formula] => .run ⟨environment, formula⟩
  | _ => .misuse

/-- The request of a command line, with the environment and the formula found so far. -/
def simplification (environment formula : Option String) : List String → Request Simplification
  | [] => formulaOnly environment formula []
  | word :: words =>
    match WordKind.of word with
    | .version => .version
    | .unknownOption => .misuse
    | .separator => formulaOnly environment formula words
    | .plain =>
      match environment, formula with
      | none, none =>
        if hasSuccessor words then
          if word.isEmpty then .misuse else simplification (some word) none words
        else simplification none (some word) words
      | some environment, none => simplification (some environment) (some word) words
      | _, some _ => .misuse

/-- The request of a command line for an expression, with the expression found so far. -/
def evaluation (expression : Option String) : List String → Request String
  | [] => expression.elim .misuse .run
  | word :: words =>
    match WordKind.of word, expression with
    | .version, _ => .version
    | .unknownOption, _ => .misuse
    | .separator, _ =>
      match expression.toList ++ words with
      | [expression] => .run expression
      | _ => .misuse
    | .plain, none => evaluation (some word) words
    | .plain, some _ => .misuse

/-- The line about what remains of an input, if anything does. -/
def remainingLine {α : Type} (reading : Reading α) : String :=
  if reading.hasRemaining then "There's some remaining input: " ++ reading.remaining ++ "\n" else ""

/-- The answer to a formula that was read, under an environment. -/
def simplified (environment : Environment) : Except Error (Reading Term) × Log → Response
  | (.error .unparseable, log) => .refused "Can't parse the input!\n" log
  | (.error error, log) => .failed "reading formula" error log
  | (.ok reading, log) =>
    .done ("parsed expression = " ++ reading.value.render ++ "\n" ++
      "simplified result = " ++ (reading.value.simplify environment).render ++ "\n" ++
      remainingLine reading) log

/-- The answer to an expression that was evaluated. -/
def evaluated : Except Error (Reading Int) × Log → Response
  | (.error .unparseable, log) => .refused "Couldn't read the input!\n" log
  | (.error error, log) => .failed "evaluating expression" error log
  | (.ok reading, log) =>
    .done ("result = " ++ toString reading.value ++ "\n" ++ remainingLine reading) log

/-- The answer to a formula under an environment that was loaded, or could not be. -/
def answerFormula {m : Type → Type} [Monad m] (standardInput : m (List UInt8)) (formula : String) :
    Except Error Environment.Loaded → m Response
  | .error error => pure (.failed "loading environment" error #[])
  | .ok loaded => do
    let (outcome, log) ←
      if formula = "-" then do
        let bytes ← standardInput
        pure (parseDocument formula (.file bytes))
      else pure (parseFormula formula)
    pure (simplified loaded.environment (outcome, loaded.log ++ log))

/-- Answers the command `prop`.  The environment is loaded before the formula is read. -/
def runProp {m : Type → Type} [Monad m] (parse : String → Except String Json)
    (documentAt : String → m Document) (standardInput : m (List UInt8)) :
    Request Simplification → m Response
  | .version => pure (.version "prop")
  | .misuse => pure .misused
  | .run ⟨none, formula⟩ => answerFormula standardInput formula (.ok .nothing)
  | .run ⟨some path, formula⟩ => do
    let document ← documentAt path
    answerFormula standardInput formula (loadEnvironment parse path document)

/-- Answers the command `calc`. -/
def runCalc : Request String → Response
  | .version => .version "calc"
  | .misuse => .misused
  | .run expression => evaluated (evaluate expression)

end Formulary.Command
