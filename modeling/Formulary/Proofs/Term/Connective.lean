import Formulary.Term.Basic

/-!
# Connectives

Conjunction and disjunction are alike but for the truth value that decides them from either side,
the *absorbing* one, and the word between their operands.  `Connective.join` forms either, and
`Term.rec_join` is the induction on terms that treats the two as one.
-/

namespace Formulary

/-- Conjunction or disjunction. -/
inductive Connective where
  | and
  | or
deriving DecidableEq

namespace Connective

/-- The term that the connective forms of two operands. -/
def join : Connective → Term → Term → Term
  | .and => .and
  | .or => .or

/-- The truth value of an operand that decides the connective. -/
def absorbing : Connective → Bool
  | .and => false
  | .or => true

end Connective

/-- What holds of the leaves and is kept by equations, negations and both connectives holds of all
terms. -/
theorem Term.rec_join {P : Term → Prop}
    (value : ∀ v, P (.value v)) (identifier : ∀ name, P (.identifier name))
    (equation : ∀ left right, P left → P right → P (.equation left right))
    (not : ∀ arg, P arg → P (.not arg))
    (join : ∀ (k : Connective) left right, P left → P right → P (k.join left right)) (t : Term) :
  P t
  := by
  induction t with
  | value v => apply value
  | identifier name => apply identifier
  | equation left right hl hr => apply equation left right hl hr
  | not arg h => apply not arg h
  | and left right hl hr => apply join .and left right hl hr
  | or left right hl hr => apply join .or left right hl hr

end Formulary
