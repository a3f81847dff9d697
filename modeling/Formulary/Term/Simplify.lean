import Formulary.Environment.Basic

/-!
# Simplification

`Term.simplify` puts the values of bound identifiers into a formula and removes what has become
redundant: an equation of equal sides or of two values, the negation of a truth value or of a
negation, a truth value as an operand.  Each step puts a simplified operand or a value in the place
of a node, so one pass over the tree suffices.
-/

namespace Formulary.Term

/-- The formula, simplified under the bindings of `env`. -/
def simplify (env : Environment) : Term → Term
  | .value v => .value v
  | .identifier name =>
    match env.get? name with
    | some v => .value v
    | none => .identifier name
  | .equation left right =>
    let left := left.simplify env
    let right := right.simplify env
    if left = right then .bool true
    else if left.isValue && right.isValue then .bool false
    else .equation left right
  | .not arg =>
    match arg.simplify env with
    | .value (.bool b) => .bool !b
    | .not inner => inner
    | arg => .not arg
  | .and left right =>
    let left := left.simplify env
    match left.asBool with
    | some false => left
    | some true => right.simplify env
    | none =>
      let right := right.simplify env
      match right.asBool with
      | some false => right
      | some true => left
      | none => .and left right
  | .or left right =>
    let left := left.simplify env
    match left.asBool with
    | some true => left
    | some false => right.simplify env
    | none =>
      let right := right.simplify env
      match right.asBool with
      | some true => right
      | some false => left
      | none => .or left right

end Formulary.Term
