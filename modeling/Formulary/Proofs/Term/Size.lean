import Formulary.Proofs.Term.Rewriting
import Mathlib.Tactic.Common

/-!
# Sizes

Simplification substitutes values for bound identifiers, which keeps the size of a formula, and
applies the rules.  A rule rebuilds the node at which it is applied, or else makes a smaller term of
it.  So simplification never makes a formula larger, and where the size stays the same nothing was
done but substitute (`simplify_shrinks`).
-/

namespace Formulary.Term

/-- The formula with their values in the places of bound identifiers, and nothing else changed. -/
def substitute (env : Environment) : Term → Term
  | .value v => .value v
  | .identifier name =>
    match env.get? name with
    | some v => .value v
    | none => .identifier name
  | .equation left right => .equation (left.substitute env) (right.substitute env)
  | .not arg => .not (arg.substitute env)
  | .and left right => .and (left.substitute env) (right.substitute env)
  | .or left right => .or (left.substitute env) (right.substitute env)

variable {env : Environment} {k : Connective} {left right t s : Term}

theorem substitute_join (env : Environment) (k : Connective) (left right : Term) :
  (k.join left right).substitute env = k.join (left.substitute env) (right.substitute env)
  := by cases k <;> rfl

theorem size_join (k : Connective) (left right : Term) :
  (k.join left right).size = 1 + left.size + right.size
  := by cases k <;> rfl

theorem size_pos (t : Term) :
  0 < t.size
  := by cases t <;> simp only [size] <;> omega

/-- A value takes as much room as the identifier that it replaces. -/
theorem size_substitute (env : Environment) (t : Term) :
  (t.substitute env).size = t.size
  := by
  induction t using rec_join with
  | value v => rfl
  | identifier name =>
      rw [substitute]
      cases env.get? name <;> rfl
  | equation left right hl hr => rw [substitute, size, hl, hr, size]
  | not arg ih => rw [substitute, size, ih, size]
  | join k left right hl hr => rw [substitute_join, size_join, hl, hr, size_join]

/-! ### Terms that shrink -/

/-- From the first term comes the second, which is the same one or smaller. -/
inductive Shrinks (t : Term) : Term → Prop where
  | unchanged : Shrinks t t
  | smaller {s : Term} (size_lt : s.size < t.size) : Shrinks t s

namespace Shrinks

theorem size_le (h : Shrinks t s) :
  s.size ≤ t.size
  := by
  cases h with
  | unchanged => apply Nat.le_refl
  | smaller size_lt => apply Nat.le_of_lt size_lt

/-- Of two terms of one size neither has shrunk to the other. -/
theorem size_eq_iff (h : Shrinks t s) :
  s.size = t.size ↔ s = t
  := by
  cases h with
  | unchanged => simp
  | smaller size_lt =>
      constructor
      · intro hsize
        exact absurd hsize (Nat.ne_of_lt size_lt)
      · rintro rfl
        rfl

theorem trans {u : Term} (h : Shrinks t s) (h' : Shrinks s u) :
  Shrinks t u
  := by
  cases h' with
  | unchanged => apply h
  | smaller size_lt => apply Shrinks.smaller (Nat.lt_of_lt_of_le size_lt h.size_le)

theorem not (h : Shrinks t s) :
  Shrinks (.not t) (.not s)
  := by
  cases h with
  | unchanged => apply Shrinks.unchanged
  | smaller size_lt =>
      apply Shrinks.smaller
      simp only [size]
      omega

/-- A node with two operands shrinks when they do. -/
theorem node {left' right' : Term} {node : Term → Term → Term}
    (hsize : ∀ left right, (node left right).size = 1 + left.size + right.size)
    (hl : Shrinks left left') (hr : Shrinks right right') :
  Shrinks (node left right) (node left' right')
  := by
  have hle := hr.size_le
  cases hl with
  | unchanged =>
      cases hr with
      | unchanged => apply Shrinks.unchanged
      | smaller size_lt =>
          apply Shrinks.smaller
          rw [hsize, hsize]
          omega
  | smaller size_lt =>
      apply Shrinks.smaller
      rw [hsize, hsize]
      omega

end Shrinks

/-! ### The rules shrink -/

/-- An equation that is decided gives way to a single value. -/
theorem shrinks_equate (left right : Term) :
  Shrinks (equation left right) (equate left right)
  := by
  have hdecided (b : Bool) : Shrinks (equation left right) (bool b) := by
    have := left.size_pos
    apply Shrinks.smaller
    simp only [bool, size]
    omega
  rw [equate]
  split_ifs
  · apply hdecided
  · apply hdecided
  · apply Shrinks.unchanged

/-- A negation that is carried out or cancelled takes a node or two away. -/
theorem shrinks_negate (t : Term) :
  Shrinks (not t) (negate t)
  := by
  unfold negate
  split
  · apply Shrinks.smaller
    simp only [bool, size]
    omega
  · apply Shrinks.smaller
    simp only [size]
    omega
  · apply Shrinks.unchanged

/-- A connective that is decided gives way to one of its operands. -/
theorem shrinks_connect (k : Connective) (left right : Term) :
  Shrinks (k.join left right) (connect k left right)
  := by
  have hsize := size_join k left right
  rcases connect_eq_operand_or_join k left right with h | h | h
  · rw [h]
    apply Shrinks.smaller
    omega
  · rw [h]
    apply Shrinks.smaller
    omega
  · rw [h]
    apply Shrinks.unchanged

/-! ### Simplification shrinks -/

/-- What comes of a formula after substitution is the simplified one. -/
theorem shrinks_simplify (env : Environment) (t : Term) :
  Shrinks (t.substitute env) (t.simplify env)
  := by
  induction t using rec_join with
  | value v => apply Shrinks.unchanged
  | identifier name => apply Shrinks.unchanged
  | equation left right hl hr =>
      rw [simplify_equation]
      apply (Shrinks.node (fun _ _ => rfl) hl hr).trans (shrinks_equate _ _)
  | not arg ih =>
      rw [simplify_not]
      apply ih.not.trans (shrinks_negate _)
  | join k left right hl hr =>
      rw [simplify_join, substitute_join]
      apply (Shrinks.node (size_join k) hl hr).trans (shrinks_connect k _ _)

/-- A simplified formula is not larger than the formula, and it has the same size just when it is
the formula with the values of bound identifiers in their places. -/
theorem simplify_shrinks (env : Environment) (t : Term) :
  (t.simplify env).size ≤ t.size
    ∧ ((t.simplify env).size = t.size ↔ t.simplify env = t.substitute env)
  := by
  have hshrinks := shrinks_simplify env t
  rw [← size_substitute env t]
  exact ⟨hshrinks.size_le, hshrinks.size_eq_iff⟩

/-- A text in the place of an identifier decides no connective, so that the size stays. -/
example :
  let env : Environment := (∅ : Environment).insert "x" (.str "s")
  let t : Term := .and (.identifier "x") (.not (.identifier "y"))
  t.simplify env = .and (.str "s") (.not (.identifier "y")) ∧ (t.simplify env).size = t.size
  := by decide

end Formulary.Term
