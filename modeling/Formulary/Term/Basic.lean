/-!
# Terms

A formula of propositional logic with names and equations, as a tree.  Its leaves are values, which
are truth values or texts, and identifiers, which stand for values not yet known.
-/

namespace Formulary

/-- A truth value or a text. -/
inductive Value where
  | bool (b : Bool)
  | str (s : String)
deriving DecidableEq, Inhabited

/-- The truth value, if `v` is one. -/
def Value.asBool : Value → Option Bool
  | .bool b => some b
  | .str _ => none

/-- The name of the type of a value. -/
def Value.typeName : Value → String
  | .bool _ => "Bool"
  | .str _ => "Str"

/-- A formula. -/
inductive Term where
  | value (v : Value)
  | identifier (name : String)
  | equation (left right : Term)
  | not (arg : Term)
  | and (left right : Term)
  | or (left right : Term)
deriving DecidableEq, Inhabited

namespace Term

/-- The formula of a truth value. -/
def bool (b : Bool) : Term := .value (.bool b)

/-- The formula of a text. -/
def str (s : String) : Term := .value (.str s)

/-- Whether the formula is a single value. -/
def isValue : Term → Bool
  | .value _ => true
  | _ => false

theorem isValue_iff {t : Term} :
  t.isValue ↔ ∃ v, t = .value v
  := by cases t <;> simp [isValue]

/-- The value, if the formula is one. -/
def asValue : Term → Option Value
  | .value v => some v
  | _ => none

/-- The truth value, if the formula is one. -/
def asBool (t : Term) : Option Bool := t.asValue.bind Value.asBool

/-- The number of nodes of the tree. -/
def size : Term → Nat
  | .value _ | .identifier _ => 1
  | .not arg => 1 + arg.size
  | .equation left right | .and left right | .or left right => 1 + left.size + right.size

end Term

end Formulary
