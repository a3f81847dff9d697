import Formulary.Tape.LineReader

/-!
# Streams

A feed gives its code points once, one for each request.  A stream remembers what its feed has
given, so that every position that was reached can be visited again; it makes a request only for the
code point after the last one known, and none after the feed has answered that there are no more.
-/

namespace Formulary

/-- Where the code points of a feed come from. -/
inductive Supply where
  | codePoints (rest : List Char)
  | lines (reader : LineReader)

namespace Supply

/-- A number that the code points to come do not exceed. -/
def bound : Supply → Nat
  | .codePoints rest => rest.length
  | .lines reader => reader.line.length + reader.unread.length

/-- The next code point. -/
def next : Supply → Answer Char Supply
  | .codePoints [] => ⟨none, none, .codePoints []⟩
  | .codePoints (c :: rest) => ⟨some c, none, .codePoints rest⟩
  | .lines reader =>
    let ⟨item, failure, reader⟩ := reader.next
    ⟨item, failure, .lines reader⟩

end Supply

/-- A supply with the number of requests made so far. -/
structure Feed where
  supply : Supply
  requests : Nat

/-- The answer to one more request. -/
def Feed.next (f : Feed) : Answer Char Feed :=
  let ⟨item, failure, supply⟩ := f.supply.next
  ⟨item, failure, ⟨supply, f.requests + 1⟩⟩

/-- A feed, the code points it has given, and whether it has answered that there are no more. -/
structure Stream where
  feed : Feed
  known : Array Char
  ended : Bool

namespace Stream

/-- The stream of a supply before its first request. -/
def ofSupply (supply : Supply) : Stream := ⟨⟨supply, 0⟩, #[], false⟩

/-- Makes a request.  The item is the position of the new code point. -/
def request (s : Stream) : Answer Nat Stream :=
  match s with
  | ⟨feed, known, _⟩ =>
    match feed.next with
    | ⟨some c, failure, feed⟩ => ⟨some known.size, failure, ⟨feed, known.push c, false⟩⟩
    | ⟨none, failure, feed⟩ => ⟨none, failure, ⟨feed, known, true⟩⟩

/-- The position after `i`, by a request where it is not known. -/
def after (s : Stream) (i : Nat) : Answer Nat Stream :=
  if i + 1 < s.known.size then ⟨some (i + 1), none, s⟩
  else if s.ended then ⟨none, none, s⟩
  else s.request

/-- Whether it is known what follows position `i`. -/
def isKnownAfter (s : Stream) (i : Nat) : Bool := i + 1 < s.known.size || s.ended

end Stream

end Formulary
