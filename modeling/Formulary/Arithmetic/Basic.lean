/-!
# Integer arithmetic

The four operations on the integers from -2^63 to 2^63 - 1.  An operation whose result lies outside
this range is a fault, and so is a division by zero.  A division drops the fraction.
-/

namespace Formulary.Arithmetic

/-- Why an operation has no result. -/
inductive Fault where
  | overflow
  | divisionByZero
deriving DecidableEq

/-- The text of a fault. -/
def Fault.message : Fault → String
  | .overflow => "Arithmetic overflow"
  | .divisionByZero => "Division by zero"

/-- The value of an expression, or the fault met first while it was evaluated. -/
abbrev Outcome := Except Fault Int

/-- The least number. -/
def least : Int := -0x8000000000000000

/-- The greatest number. -/
def greatest : Int := 0x7FFFFFFFFFFFFFFF

/-- A result, if it is in range. -/
def ranged (n : Int) : Outcome :=
  if least ≤ n ∧ n ≤ greatest then .ok n else .error .overflow

/-- An operation. -/
inductive Operator where
  | plus
  | minus
  | times
  | over
deriving DecidableEq

/-- The result of an operation. -/
def Operator.apply : Operator → Int → Int → Outcome
  | .plus, a, b => ranged (a + b)
  | .minus, a, b => ranged (a - b)
  | .times, a, b => ranged (a * b)
  | .over, a, b => if b = 0 then .error .divisionByZero else ranged (a.tdiv b)

/-- The result of an operation on outcomes.  The fault of the left one goes before that of the right
one, and both before a fault of the operation. -/
def Operator.combine (op : Operator) (left right : Outcome) : Outcome :=
  match left, right with
  | .error fault, _ => .error fault
  | .ok _, .error fault => .error fault
  | .ok a, .ok b => op.apply a b

end Formulary.Arithmetic
