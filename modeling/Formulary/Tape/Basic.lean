import Formulary.Event
import Formulary.Tape.Stream

/-!
# Tapes

A tape is what parsers read: a text held in memory or a stream, together with the log of what
happened while it was read.  Cursors stand on a tape; advancing a cursor may take more of a stream,
so it gives the tape back.  A position once reached can be visited again at no cost, and shows the
same code point each time.
-/

namespace Formulary

/-- Where the code points of a tape are. -/
inductive Source where
  | text (codePoints : Array Char)
  | stream (s : Stream)

/-- A source, a number that its code points do not exceed, and the log. -/
structure Tape where
  source : Source
  capacity : Nat
  log : Log

namespace Tape

/-- The code point that is shown where there is none. -/
def endMark : Char := '\x00'

/-- Adds an event to the log. -/
def record (tape : Tape) (event : Event) : Tape :=
  match tape with
  | ⟨source, capacity, log⟩ => ⟨source, capacity, log.push event⟩

/-- Adds the failure of a reader to the log, if there was one. -/
def recordFailure (tape : Tape) : Option String → Tape
  | none => tape
  | some reason => tape.record (.readFailed reason)

/-- The tape of a text, with a cursor at its beginning. -/
def ofText (text : String) : Cursor × Tape :=
  let codePoints := text.toList.toArray
  (⟨if codePoints.isEmpty then none else some 0, 0⟩, ⟨.text codePoints, codePoints.size, #[]⟩)

/-- The tape of a stream, with a cursor at its beginning.  Takes the first code point. -/
def ofSupply (supply : Supply) : Cursor × Tape :=
  let ⟨position, failure, s⟩ := (Stream.ofSupply supply).request
  (⟨position, 0⟩, recordFailure ⟨.stream s, supply.bound, #[]⟩ failure)

/-- The code point at a position. -/
def codePointAt? (tape : Tape) (i : Nat) : Option Char :=
  match tape.source with
  | .text codePoints => codePoints[i]?
  | .stream s => s.known[i]?

/-- The position after `i`. -/
def after (tape : Tape) (i : Nat) : Option Nat × Tape :=
  match tape with
  | ⟨.text codePoints, capacity, log⟩ =>
    (if i + 1 < codePoints.size then some (i + 1) else none, ⟨.text codePoints, capacity, log⟩)
  | ⟨.stream s, capacity, log⟩ =>
    let ⟨position, failure, s⟩ := s.after i
    (position, recordFailure ⟨.stream s, capacity, log⟩ failure)

/-- The code point at the cursor, if any remains. -/
def peek? (tape : Tape) (c : Cursor) : Option Char := c.position.bind tape.codePointAt?

/-- The code point at the cursor, or the end mark. -/
def current (tape : Tape) (c : Cursor) : Char := (tape.peek? c).getD endMark

/-- What there is to see at the cursor. -/
def place (tape : Tape) (c : Cursor) : Place := ⟨tape.peek? c, c.offset⟩

/-- The cursor one code point further.  A cursor past the end stays as it is. -/
def advance (tape : Tape) (c : Cursor) : Cursor × Tape :=
  match c.position with
  | none => (c, tape)
  | some i =>
    let (position, tape) := tape.after i
    (⟨position, c.offset + 1⟩, tape)

/-- A fresh cursor at the position after the cursor's. -/
def following (tape : Tape) (c : Cursor) : Cursor × Tape :=
  let (c, tape) := tape.advance c
  (c.reset, tape)

/-- At most `fuel` steps over code points that satisfy `p`, which are put after `passed`. -/
def passLoop (p : Char → Bool) : Nat → String → Cursor → Tape → String × Cursor × Tape
  | 0, passed, c, tape => (passed, c, tape)
  | fuel + 1, passed, c, tape =>
    match tape.peek? c with
    | none => (passed, c, tape)
    | some x =>
      if p x then
        let (c, tape) := tape.advance c
        passLoop p fuel (passed.push x) c tape
      else (passed, c, tape)

/-- Advances while the code point at the cursor satisfies `p`, and puts the code points that were
passed after `passed`. -/
def passWhile (tape : Tape) (p : Char → Bool) (passed : String) (c : Cursor) :
    String × Cursor × Tape :=
  passLoop p tape.capacity passed c tape

/-- What remains at the cursor, to the end. -/
def rest (tape : Tape) (c : Cursor) : String × Tape :=
  let (passed, _, tape) := tape.passWhile (fun _ => true) "" c
  (passed, tape)

end Tape

end Formulary
