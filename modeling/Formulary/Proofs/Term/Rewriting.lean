import Formulary.Proofs.Term.Connective
import Formulary.Term.Simplify

/-!
# The rewriting rules of simplification

Simplification rebuilds a term from its simplified operands by one rule for each kind of node:
`equate`, `negate` and `connect`, the last for both connectives.  The rule of a connective looks at
both operands; that an operand which is absorbing or neutral keeps the other one from being
simplified changes nothing.  Each rule commutes with simplification.
-/

namespace Formulary.Term

/-! ### The rules -/

/-- An equation, decided where its sides are equal or two values. -/
def equate (left right : Term) : Term :=
  if left = right then .bool true
  else if left.isValue && right.isValue then .bool false
  else .equation left right

/-- A negation, without truth values and double negations. -/
def negate : Term → Term
  | .value (.bool b) => .bool !b
  | .not inner => inner
  | arg => .not arg

/-- Two terms with a connective between them; a truth value decides it or leaves the other term. -/
def connect (k : Connective) (left right : Term) : Term :=
  match left.asBool with
  | some b => if b = k.absorbing then left else right
  | none =>
    match right.asBool with
    | some b => if b = k.absorbing then right else left
    | none => k.join left right

theorem simplify_value (env : Environment) (v : Value) :
  (value v).simplify env = value v
  := rfl

theorem simplify_equation (env : Environment) (left right : Term) :
  (equation left right).simplify env = equate (left.simplify env) (right.simplify env)
  := rfl

theorem simplify_not (env : Environment) (arg : Term) :
  (not arg).simplify env = negate (arg.simplify env)
  := rfl

/-- Both connectives are simplified by the one rule. -/
theorem simplify_join (env : Environment) (k : Connective) (left right : Term) :
  (k.join left right).simplify env = connect k (left.simplify env) (right.simplify env)
  := by
  cases k with
  | and =>
      simp only [Connective.join, simplify, connect, Connective.absorbing]
      rcases (left.simplify env).asBool with _ | _ | _
      · rcases (right.simplify env).asBool with _ | _ | _ <;> rfl
      · rfl
      · rfl
  | or =>
      simp only [Connective.join, simplify, connect, Connective.absorbing]
      rcases (left.simplify env).asBool with _ | _ | _
      · rcases (right.simplify env).asBool with _ | _ | _ <;> rfl
      · rfl
      · rfl

/-! ### The laws of equations -/

theorem equate_self (t : Term) :
  equate t t = bool true
  := by simp [equate]

theorem equate_value (a b : Value) :
  equate (value a) (value b) = bool (a = b)
  := by
  by_cases h : a = b
  · simp [equate, h]
  · simp [equate, h, isValue]

theorem equate_of_ne {left right : Term} (hsides : left ≠ right)
    (hvalues : ¬(left.isValue ∧ right.isValue)) :
  equate left right = equation left right
  := by
  rw [equate, if_neg hsides, if_neg]
  simpa using hvalues

/-! ### The laws of connectives -/

@[simp]
theorem asBool_bool (b : Bool) :
  (bool b).asBool = some b
  := rfl

/-- A term that has a truth value is that truth value. -/
theorem eq_bool_of_asBool {t : Term} {b : Bool} (h : t.asBool = some b) :
  t = bool b
  := by
  cases t with
  | value v =>
      cases v with
      | bool c =>
          obtain rfl := Option.some.inj h
          rfl
      | str s => cases h
  | _ => cases h

/-- A term absorbs, is neutral or is no truth value. -/
theorem absorbing_or_neutral_or_open (k : Connective) (t : Term) :
  t = bool k.absorbing ∨ t = bool (!k.absorbing) ∨ t.asBool = none
  := by
  rcases h : t.asBool with _ | b
  · simp
  · obtain rfl := eq_bool_of_asBool h
    cases b <;> cases k <;> simp [Connective.absorbing]

/-- The absorbing truth value is a left zero. -/
theorem connect_absorbing_left (k : Connective) (right : Term) :
  connect k (bool k.absorbing) right = bool k.absorbing
  := by simp [connect]

/-- The other truth value is a left unit. -/
theorem connect_neutral_left (k : Connective) (right : Term) :
  connect k (bool (!k.absorbing)) right = right
  := by simp [connect]

theorem connect_open {k : Connective} {left right : Term}
    (hl : left.asBool = none) (hr : right.asBool = none) :
  connect k left right = k.join left right
  := by simp [connect, hl, hr]

/-- The absorbing truth value is a right zero. -/
theorem connect_absorbing_right (k : Connective) (left : Term) :
  connect k left (bool k.absorbing) = bool k.absorbing
  := by
  rcases absorbing_or_neutral_or_open k left with rfl | rfl | h
  · apply connect_absorbing_left
  · apply connect_neutral_left
  · simp [connect, h]

/-- The other truth value is a right unit. -/
theorem connect_neutral_right (k : Connective) (left : Term) :
  connect k left (bool (!k.absorbing)) = left
  := by
  rcases absorbing_or_neutral_or_open k left with rfl | rfl | h
  · apply connect_absorbing_left
  · apply connect_neutral_left
  · simp [connect, h]

/-- A connective leaves one of its operands or joins both. -/
theorem connect_eq_operand_or_join (k : Connective) (left right : Term) :
  connect k left right = left ∨ connect k left right = right
    ∨ connect k left right = k.join left right
  := by
  rcases absorbing_or_neutral_or_open k left with rfl | rfl | hl
  · simp [connect_absorbing_left]
  · simp [connect_neutral_left]
  · rcases absorbing_or_neutral_or_open k right with rfl | rfl | hr
    · simp [connect_absorbing_right]
    · simp [connect_neutral_right]
    · simp [connect_open hl hr]

end Formulary.Term
