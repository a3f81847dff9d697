import Formulary.Parser.Basic

/-!
# Parsers that refer to themselves

`Parser.fix build` is the parser that `build` makes of a handle of it.  A handle does not keep its
parser, and fails where the parser is gone.  The parser is reached from below: the parser of depth
zero fails, and the parser of depth `n + 1` is what `build` makes of a handle of the parser of depth
`n`.  Where each entry into the parser passes a code point before the next one within it, no entry
lies deeper than the number of code points.
-/

namespace Formulary.Parser

variable {α : Type}

/-- The handle of the parser in a slot, which is looked up each time.  With nothing in the slot it
fails. -/
def handle (slot : Unit → Option (Parser α)) : Parser α := ⟨fun c tape =>
  match slot () with
  | some p => p.run c tape
  | none => (.failure c, tape)⟩

@[simp]
theorem handle_some (p : Parser α) :
  handle (fun _ => some p) = p
  := rfl

@[simp]
theorem handle_none :
  handle (fun _ => none) = (fail : Parser α)
  := rfl

/-- The parser with at most `depth` entries within each other. -/
def approximate (build : Parser α → Parser α) : Nat → Parser α
  | 0 => fail
  | depth + 1 => build (handle fun _ => some (approximate build depth))

/-- The parser that `build` makes of a handle of it. -/
def fix (build : Parser α → Parser α) : Parser α := ⟨fun c tape =>
  (approximate build (tape.capacity + 1)).run c tape⟩

end Formulary.Parser
