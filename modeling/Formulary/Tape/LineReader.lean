import Formulary.Text.Utf8

/-!
# Line readers

A line reader takes bytes line by line, each line only when the one before is used up, and delivers
the code points of its lines one by one.  It ends where its bytes end, or fails there: then the
bytes after the last line feed are lost.  Once it has ended or failed it reads no more.
-/

namespace Formulary

/-- The answer to a request: an item, unless there are no more; the reason of a failure met on the
way; and what to ask next. -/
structure Answer (α ρ : Type) where
  item : Option α
  failure : Option String
  rest : ρ

/-- A reader of bytes: the bytes not yet read, the failure it meets after the last of them, the
number of bytes read, the bytes of the current line not yet decoded, and whether reading is over. -/
structure LineReader where
  unread : List UInt8
  failure : Option String
  consumed : Nat
  line : List UInt8
  finished : Bool
deriving DecidableEq

namespace LineReader

/-- The reader of `bytes` at its beginning. -/
def ofBytes (bytes : List UInt8) (failure : Option String) : LineReader :=
  ⟨bytes, failure, 0, [], false⟩

/-- The first line of `bytes`, up to and including its line feed, and the bytes after it. -/
def cutLine (bytes : List UInt8) : List UInt8 × List UInt8 :=
  match bytes.dropWhile (· != Utf8.lineFeed) with
  | [] => (bytes, [])
  | b :: rest => (bytes.takeWhile (· != Utf8.lineFeed) ++ [b], rest)

/-- The reader after it has taken `line`, with `rest` still to read. -/
def take (r : LineReader) (line rest : List UInt8) : LineReader :=
  ⟨rest, r.failure, r.consumed + line.length, line, false⟩

/-- The reader after it has taken the last bytes in vain. -/
def finish (r : LineReader) (lost : List UInt8) : LineReader :=
  ⟨[], r.failure, r.consumed + lost.length, [], true⟩

/-- Reads the next line.  A line without a line feed is the last one, and it counts only if the
reader does not fail there. -/
def refill (r : LineReader) : Answer Unit LineReader :=
  let (line, rest) := cutLine r.unread
  if line.getLast? = some Utf8.lineFeed then ⟨some (), none, r.take line rest⟩
  else match r.failure with
    | some reason => ⟨none, some reason, r.finish line⟩
    | none => if line.isEmpty then ⟨none, none, r.finish []⟩ else ⟨some (), none, r.take line []⟩

/-- The next code point of the current line. -/
def deliver (r : LineReader) : Answer Char LineReader :=
  match Utf8.decodeOne r.line with
  | none => ⟨none, none, r⟩
  | some (piece, line) => ⟨some (piece.getD Utf8.replacement), none, { r with line := line }⟩

/-- The next code point, of the next line if the current one is used up. -/
def next (r : LineReader) : Answer Char LineReader :=
  if !r.line.isEmpty || r.finished then r.deliver
  else match r.refill with
    | ⟨some _, _, r⟩ => r.deliver
    | ⟨none, failure, r⟩ => ⟨none, failure, r⟩

end LineReader

end Formulary
