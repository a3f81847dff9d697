import Formulary.Arithmetic.Basic
import Mathlib.Algebra.Group.Int.Defs
import Mathlib.Data.List.Basic

/-!
# The evaluation of trees

An expression stands for a tree of operations, which is evaluated over all the integers.
`Tree.steps` lists the operations in the order in which they are carried out: those of the left
operand, those of the right one, and then the operation itself.  `Tree.outcome` is the value of the
tree if no step has a fault, and otherwise the fault of the first step that has one.

The outcome can be computed from the leaves up, with each result brought into range at once and with
faults carried on (`Tree.outcome_operation`).  This is one of the *meanings* that trees can have;
another one is the tree itself.
-/

namespace Formulary.Arithmetic

/-- The integer that an operation comes to.  A quotient drops the fraction. -/
def Operator.exact : Operator → Int → Int → Int
  | .plus, a, b => a + b
  | .minus, a, b => a - b
  | .times, a, b => a * b
  | .over, a, b => a.tdiv b

/-! ### Steps -/

/-- An operation on integers. -/
structure Step where
  operator : Operator
  left : Int
  right : Int

/-- The integer that the operation comes to. -/
def Step.result (s : Step) : Int := s.operator.exact s.left s.right

/-- The operation is a division by zero. -/
def Step.DividesByZero (s : Step) : Prop := s.operator = .over ∧ s.right = 0

/-- The result can be represented with 64 bits. -/
def Step.InRange (s : Step) : Prop := -2 ^ 63 ≤ s.result ∧ s.result ≤ 2 ^ 63 - 1

instance : DecidablePred Step.DividesByZero := fun _ => inferInstanceAs (Decidable (_ ∧ _))

instance : DecidablePred Step.InRange := fun _ => inferInstanceAs (Decidable (_ ∧ _))

/-- The fault of the operation, if it has one. -/
def Step.fault? (s : Step) : Option Fault :=
  if s.DividesByZero then some .divisionByZero
  else if s.InRange then none
  else some .overflow

variable {s : Step} {fault : Fault}

theorem Step.fault?_eq_none :
  s.fault? = none ↔ ¬s.DividesByZero ∧ s.InRange
  := by
  rw [fault?]
  split_ifs <;> simp [*]

theorem Step.fault?_eq_some :
  s.fault? = some fault
    ↔ s.DividesByZero ∧ fault = .divisionByZero
      ∨ ¬s.DividesByZero ∧ ¬s.InRange ∧ fault = .overflow
  := by
  rw [fault?]
  split_ifs <;> simp [*, eq_comm]

/-- An operator applied to integers gives their exact result, or the fault of the step. -/
theorem Operator.apply_eq (op : Operator) (a b : Int) :
  op.apply a b
    = match (Step.mk op a b).fault? with
      | none => .ok (op.exact a b)
      | some fault => .error fault
  := by
  have happly : op.apply a b
      = if (Step.mk op a b).DividesByZero then .error .divisionByZero
        else if (Step.mk op a b).InRange then .ok (op.exact a b)
        else .error .overflow := by
    cases op with
    | plus | minus | times => rfl
    | _ =>
        -- only a division can be by zero
        by_cases hb : b = 0
        · rw [if_pos ⟨rfl, hb⟩]
          apply if_pos hb
        · rw [if_neg fun h => hb h.2]
          apply if_neg hb
  rw [happly, Step.fault?]
  split_ifs <;> rfl

/-! ### Trees -/

/-- An expression: numbers, and operations on operands. -/
inductive Tree where
  | number (n : Int)
  | operation (op : Operator) (left right : Tree)

namespace Tree

/-- The integer that the tree comes to. -/
def value : Tree → Int
  | number n => n
  | operation op left right => op.exact left.value right.value

/-- The operations in the order in which they are carried out. -/
def steps : Tree → List Step
  | number _ => []
  | operation op left right => left.steps ++ right.steps ++ [⟨op, left.value, right.value⟩]

/-- The value of the tree, or the fault of the first step that has one. -/
def outcome (t : Tree) : Outcome :=
  match t.steps.findSome? Step.fault? with
  | none => .ok t.value
  | some fault => .error fault

variable {t : Tree}

theorem outcome_eq_ok {n : Int} :
  t.outcome = .ok n ↔ (∀ s ∈ t.steps, ¬s.DividesByZero ∧ s.InRange) ∧ n = t.value
  := by
  have hnone : t.steps.findSome? Step.fault? = none
      ↔ ∀ s ∈ t.steps, ¬s.DividesByZero ∧ s.InRange := by
    simp only [List.findSome?_eq_none_iff, Step.fault?_eq_none]
  rw [outcome, ← hnone]
  cases t.steps.findSome? Step.fault? <;> simp [eq_comm]

theorem outcome_eq_error :
  t.outcome = .error fault
    ↔ ∃ before s after, t.steps = before ++ s :: after
        ∧ (∀ s' ∈ before, ¬s'.DividesByZero ∧ s'.InRange)
        ∧ (s.DividesByZero ∧ fault = .divisionByZero
          ∨ ¬s.DividesByZero ∧ ¬s.InRange ∧ fault = .overflow)
  := by
  have hsome : t.outcome = .error fault ↔ t.steps.findSome? Step.fault? = some fault := by
    rw [outcome]
    cases t.steps.findSome? Step.fault? <;> simp
  rw [hsome, List.findSome?_eq_some_iff]
  simp only [Step.fault?_eq_none, Step.fault?_eq_some]
  grind

/-- The quotient of the least number and -1 is out of range. -/
example : (operation .over (number (-2 ^ 63)) (number (-1))).outcome = .error .overflow := rfl

/-- The fault of the left operand comes first, then that of the right one, and then that of the
operation. -/
theorem outcome_operation (op : Operator) (left right : Tree) :
  (operation op left right).outcome = op.combine left.outcome right.outcome
  := by
  simp only [outcome, steps, value, List.findSome?_append, List.findSome?_cons, List.findSome?_nil]
  cases left.steps.findSome? Step.fault? with
  | some fault => rfl
  | none =>
      cases right.steps.findSome? Step.fault? with
      | some fault => rfl
      | none =>
          simp only [Option.none_or, Operator.combine]
          rw [Operator.apply_eq]
          cases (Step.mk op left.value right.value).fault? <;> rfl

end Tree

/-! ### Meanings -/

/-- What numbers and operations are taken to mean. -/
structure Meaning (γ : Type) where
  number : Int → γ
  operation : Operator → γ → γ → γ

namespace Meaning

/-- What a tree then means. -/
def of {γ : Type} (m : Meaning γ) : Tree → γ
  | .number n => m.number n
  | .operation op left right => m.operation op (m.of left) (m.of right)

/-- Trees mean themselves. -/
def trees : Meaning Tree := ⟨.number, .operation⟩

/-- Trees mean what they come to. -/
def outcomes : Meaning Outcome := ⟨.ok, Operator.combine⟩

theorem trees_of (t : Tree) :
  trees.of t = t
  := by
  induction t with
  | number n => rfl
  | operation op left right ihl ihr => rw [of, ihl, ihr, trees]

theorem outcomes_of (t : Tree) :
  outcomes.of t = t.outcome
  := by
  induction t with
  | number n => rfl
  | operation op left right ihl ihr => rw [of, ihl, ihr, outcomes, Tree.outcome_operation]

end Meaning

end Formulary.Arithmetic
