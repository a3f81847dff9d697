import Formulary.Parser.Basic

/-!
# Parsers of code points

The parsers that look at the tape.  Each looks only at the code points it needs, and none but the
parser of an empty text succeeds past the end.
-/

namespace Formulary.Parser

/-- Reads the code point `x`. -/
def codePoint (x : Char) : Parser Char := ⟨fun c tape =>
  match tape.peek? c with
  | none => (.failure c, tape)
  | some y =>
    if y = x then
      let (remaining, tape) := tape.advance c
      (.success x remaining, tape)
    else (.failure c, tape)⟩

/-- Reads a code point that is not among `excluded`. -/
def codePointNot (excluded : List Char) : Parser Char := ⟨fun c tape =>
  match tape.peek? c with
  | none => (.failure c, tape)
  | some y =>
    if y ∈ excluded then (.failure c, tape)
    else
      let (remaining, tape) := tape.advance c
      (.success y remaining, tape)⟩

/-- Advances over the code points `xs`, as long as they are at the cursor. -/
def passAll : List Char → Cursor → Tape → Option Cursor × Tape
  | [], c, tape => (some c, tape)
  | x :: xs, c, tape =>
    match tape.peek? c with
    | none => (none, tape)
    | some y =>
      if y = x then
        let (c, tape) := tape.advance c
        passAll xs c tape
      else (none, tape)

/-- Reads the code points `xs` in order. -/
def codePoints (xs : List Char) : Parser (List Char) := ⟨fun c tape =>
  match passAll xs c tape with
  | (some remaining, tape) => (.success xs remaining, tape)
  | (none, tape) => (.failure c, tape)⟩

/-- Reads the text `s`. -/
def string (s : String) : Parser String := (codePoints s.toList).map String.ofList

/-- Reads a code point that satisfies `first`, and all that follow it and satisfy `later`. -/
def several (first later : Char → Bool) : Parser String := ⟨fun c tape =>
  match tape.peek? c with
  | none => (.failure c, tape)
  | some x =>
    if first x then
      let (c, tape) := tape.advance c
      let (passed, remaining, tape) := tape.passWhile later x.toString c
      (.success passed remaining, tape)
    else (.failure c, tape)⟩

end Formulary.Parser
