import Formulary.Parser.Basic

/-!
# Repetition

A parser is repeated until it fails or reads nothing; a value that was read from nothing counts, but
ends the repetition.  Since every other match passes a code point, there is at most one match more
than there are code points.
-/

namespace Formulary.Parser

variable {α β : Type}

/-- At most `fuel` matches of `p`, each combined with what was gathered before. -/
def foldLoop (p : Parser α) (combine : β → α → β) : Nat → β → Cursor → Tape → Result β × Tape
  | 0, gathered, c, tape => (.success gathered c, tape)
  | fuel + 1, gathered, c, tape =>
    match p.run c tape with
    | (.failure _, tape) => (.success gathered c, tape)
    | (.success value remaining, tape) =>
      if c.offset < remaining.offset then
        foldLoop p combine fuel (combine gathered value) remaining tape
      else (.success (combine gathered value) remaining, tape)

/-- Repeats `p` and combines its values from the left, beginning with `seed`.  Succeeds always. -/
def foldl (p : Parser α) (seed : β) (combine : β → α → β) : Parser β := ⟨fun c tape =>
  foldLoop p combine (tape.capacity + 1) seed c tape⟩

/-- Repeats `p`, with the values in order. -/
def many (p : Parser α) : Parser (List α) :=
  (p.foldl [] fun values value => value :: values).map List.reverse

/-- Repeats `p`.  Fails without a match. -/
def many1 (p : Parser α) : Parser (List α) := ⟨fun c tape =>
  match p.many.run c tape with
  | (.success (value :: values) remaining, tape) => (.success (value :: values) remaining, tape)
  | (_, tape) => (.failure c, tape)⟩

end Formulary.Parser
