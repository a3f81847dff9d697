import Formulary.Tape.Basic

/-!
# Parsers

A parser reads from a cursor on a tape and either succeeds, with a value and the cursor after what
it has read, or fails.  A parser that fails has read nothing: it gives back the cursor it was given.
The parsers here are composed of others.  Choice is committed: the first alternative that succeeds
is taken and the later ones are not tried.
-/

namespace Formulary

/-- The outcome of a parser, with the cursor at what remains. -/
inductive Result (α : Type) where
  | success (value : α) (remaining : Cursor)
  | failure (remaining : Cursor)
deriving DecidableEq

namespace Result

variable {α β : Type}

/-- Whether the parser succeeded. -/
def isSuccess : Result α → Bool
  | .success .. => true
  | .failure _ => false

/-- The value of a success. -/
def value? : Result α → Option α
  | .success value _ => some value
  | .failure _ => none

/-- The cursor at what remains. -/
def remaining : Result α → Cursor
  | .success _ c => c
  | .failure c => c

/-- Changes the value of a success. -/
def map (f : α → β) : Result α → Result β
  | .success value c => .success (f value) c
  | .failure c => .failure c

end Result

/-- A reader of values of type `α`. -/
structure Parser (α : Type) where
  run : Cursor → Tape → Result α × Tape

namespace Parser

variable {α β : Type}

/-- Succeeds with `value` and reads nothing. -/
def succeed (value : α) : Parser α := ⟨fun c tape => (.success value c, tape)⟩

/-- Fails. -/
def fail : Parser α := ⟨fun c tape => (.failure c, tape)⟩

/-- Reads with `p`, then with `q`.  Fails where one of them does. -/
def both (p : Parser α) (q : Parser β) : Parser (α × β) := ⟨fun c tape =>
  match p.run c tape with
  | (.failure _, tape) => (.failure c, tape)
  | (.success a middle, tape) =>
    match q.run middle tape with
    | (.failure _, tape) => (.failure c, tape)
    | (.success b remaining, tape) => (.success (a, b) remaining, tape)⟩

/-- Reads with `p`; where `p` fails, reads with `q`. -/
def orElse (p q : Parser α) : Parser α := ⟨fun c tape =>
  match p.run c tape with
  | (.success value remaining, tape) => (.success value remaining, tape)
  | (.failure _, tape) => q.run c tape⟩

/-- Changes the value. -/
def map (f : α → β) (p : Parser α) : Parser β := ⟨fun c tape =>
  match p.run c tape with
  | (result, tape) => (result.map f, tape)⟩

/-- Changes the value.  Fails where `f` rejects it. -/
def filterMap (f : α → Option β) (p : Parser α) : Parser β := ⟨fun c tape =>
  match p.run c tape with
  | (.failure _, tape) => (.failure c, tape)
  | (.success value remaining, tape) =>
    match f value with
    | some value => (.success value remaining, tape)
    | none => (.failure c, tape)⟩

/-- Keeps the first of two values. -/
def fst (p : Parser (α × β)) : Parser α := p.map Prod.fst

/-- Keeps the second of two values. -/
def snd (p : Parser (α × β)) : Parser β := p.map Prod.snd

/-- Reads with `p`.  Where `p` fails, succeeds with `none` and reads nothing. -/
def optional (p : Parser α) : Parser (Option α) := ⟨fun c tape =>
  match p.run c tape with
  | (.success value remaining, tape) => (.success (some value) remaining, tape)
  | (.failure _, tape) => (.success none c, tape)⟩

/-- Reads with `p`, then with the parser that `next` makes of the value. -/
def bind (p : Parser α) (next : α → Parser β) : Parser β := ⟨fun c tape =>
  match p.run c tape with
  | (.failure _, tape) => (.failure c, tape)
  | (.success value middle, tape) =>
    match (next value).run middle tape with
    | (.failure _, tape) => (.failure c, tape)
    | (.success value remaining, tape) => (.success value remaining, tape)⟩

/-- Reads with `p` and reports the event of the value, if there is one. -/
def reporting (event : α → Option Event) (p : Parser α) : Parser α := ⟨fun c tape =>
  match p.run c tape with
  | (.failure _, tape) => (.failure c, tape)
  | (.success value remaining, tape) =>
    match event value with
    | some event => (.success value remaining, tape.record event)
    | none => (.success value remaining, tape)⟩

end Parser

end Formulary
