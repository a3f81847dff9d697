import Formulary.Arithmetic.Basic
import Formulary.Parser.Basic

/-!
# Diagnostic text

How diagnostics show values, the outcomes of parsers and what lies at a cursor.  A value is shown by
its constructor and its parts, the outcome of a parser with the place at which something remains.
-/

namespace Formulary

/-- A type whose values diagnostics can show. -/
class Inspect (α : Type) where
  inspect : α → String

namespace Inspect

/-- A constructor with named parts. -/
def record (name : String) (parts : List (String × String)) : String :=
  let shown := parts.map fun (key, value) => key ++ ": " ++ value
  name ++ " \x7b " ++ ", ".intercalate shown ++ " \x7d"

/-- A constructor with one part. -/
def wrapped (name shown : String) : String := name ++ "(" ++ shown ++ ")"

/-- The diagnostic text of a value. -/
def value : Value → String
  | .bool b => wrapped "Bool" (toString b)
  | .str s => wrapped "Str" (Quoted.text s)

/-- The diagnostic text of a formula. -/
def term : Term → String
  | .value v => wrapped "Value" (value v)
  | .identifier name => wrapped "Identifier" (Quoted.text name)
  | .equation left right => record "Equation" [("left", term left), ("right", term right)]
  | .not arg => wrapped "Not" (term arg)
  | .and left right => record "And" [("left", term left), ("right", term right)]
  | .or left right => record "Or" [("left", term left), ("right", term right)]

/-- The diagnostic text of an arithmetic fault. -/
def fault : Arithmetic.Fault → String
  | .overflow => "Overflow"
  | .divisionByZero => "DivisionByZero"

instance : Inspect Bool := ⟨fun b => toString b⟩

instance : Inspect Int := ⟨fun n => toString n⟩

instance : Inspect String := ⟨Quoted.text⟩

instance : Inspect Char := ⟨Quoted.char⟩

instance : Inspect Value := ⟨value⟩

instance : Inspect Term := ⟨term⟩

instance : Inspect Arithmetic.Outcome := ⟨fun
  | .ok n => wrapped "Ok" (toString n)
  | .error e => wrapped "Err" (fault e)⟩

end Inspect

/-- The diagnostic text of the outcome of a parser on a tape. -/
def Result.inspect {α : Type} [Inspect α] (tape : Tape) : Result α → String
  | .success value c =>
    Inspect.record "Success"
      [("value", Inspect.inspect value), ("remaining", (tape.place c).inspect)]
  | .failure c => Inspect.record "Failure" [("remaining", (tape.place c).inspect)]

namespace Tape

/-- The diagnostic text of what the tape holds at a cursor: of a text all code points and the
position, of a stream the code point and whether it is known what follows. -/
def inspectAt (tape : Tape) (c : Cursor) : Option String :=
  c.position.map fun i =>
    match tape.source with
    | .text codePoints =>
      Inspect.record "ArrayInput"
        [("text", "[" ++ ", ".intercalate (codePoints.toList.map Quoted.char) ++ "]"),
         ("position", toString i)]
    | .stream s =>
      Inspect.record "StreamInput"
        [("code_point", Quoted.char (tape.current c)), ("next_read", toString (s.isKnownAfter i))]

/-- The position and the rest of a text at a cursor; nothing of a stream, since its rest may be
unread. -/
def textAt? (tape : Tape) (c : Cursor) : Option (Nat × String) :=
  match tape.source, c.position with
  | .text codePoints, some i => some (i, String.ofList (codePoints.toList.drop i))
  | _, _ => none

end Tape

end Formulary
