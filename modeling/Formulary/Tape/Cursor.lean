import Formulary.Text.Quoted

/-!
# Cursors

A cursor stands at a position of a tape or past its end.  It counts the code points that were passed
since it, or the cursor it was advanced from, was set.
-/

namespace Formulary

/-- A position on a tape, `none` past the end, and the number of code points passed on the way. -/
structure Cursor where
  position : Option Nat
  offset : Nat
deriving DecidableEq, Inhabited

namespace Cursor

/-- The cursor past the end of any tape. -/
def exhausted : Cursor := ⟨none, 0⟩

/-- Whether nothing remains at the cursor. -/
def isExhausted (c : Cursor) : Bool := c.position.isNone

/-- A fresh cursor at the same position. -/
def reset (c : Cursor) : Cursor := ⟨c.position, 0⟩

end Cursor

/-- What there is to see at a cursor: the code point, if any, and the offset. -/
structure Place where
  codePoint : Option Char
  offset : Nat
deriving DecidableEq

/-- The form in which diagnostics show a place. -/
def Place.inspect (p : Place) : String :=
  let shown := match p.codePoint with
    | some c => Quoted.char c
    | none => "<end>"
  "Cursor(" ++ shown ++ " @ " ++ toString p.offset ++ ")"

end Formulary
