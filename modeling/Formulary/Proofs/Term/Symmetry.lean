import Formulary.Proofs.Table
import Formulary.Proofs.Term.Rewriting
import Mathlib.Logic.Function.Basic
import Mathlib.Tactic.Common

/-!
# Symmetries of simplification

Simplification does not tell left from right: it commutes with `mirror`, which swaps the operands of
equations and connectives.  Without equations it does not tell the connectives apart either: it
commutes with `dual`, which swaps the two connectives and the two truth values
(`simplify_symmetric`).

Each rule has both symmetries, that of an equation the first one only, since an equation of equal
sides is true in the dual as well.
-/

namespace Formulary

/-! ### Dual values and connectives -/

/-- The other truth value, or the same text. -/
def Value.dual : Value → Value
  | .bool b => .bool !b
  | .str s => .str s

/-- The other connective. -/
def Connective.dual : Connective → Connective
  | .and => .or
  | .or => .and

/-- What decides a connective is neutral for the other one. -/
theorem Connective.absorbing_dual (k : Connective) :
  k.dual.absorbing = !k.absorbing
  := by cases k <;> rfl

/-- The environment that binds the same names to the dual values. -/
def Environment.dual (env : Environment) : Environment := env.map Value.dual

namespace Term

variable {k : Connective} {left right t : Term}

/-! ### Left and right -/

/-- The formula with the operands of equations and connectives swapped. -/
def mirror : Term → Term
  | .value v => .value v
  | .identifier name => .identifier name
  | .equation left right => .equation right.mirror left.mirror
  | .not arg => .not arg.mirror
  | .and left right => .and right.mirror left.mirror
  | .or left right => .or right.mirror left.mirror

theorem mirror_join (k : Connective) (left right : Term) :
  (k.join left right).mirror = k.join right.mirror left.mirror
  := by cases k <;> rfl

theorem mirror_involutive :
  Function.Involutive mirror
  := by
  intro t
  induction t using rec_join with
  | value v => rfl
  | identifier name => rfl
  | equation left right hl hr => rw [mirror, mirror, hl, hr]
  | not arg ih => rw [mirror, mirror, ih]
  | join k left right hl hr => rw [mirror_join, mirror_join, hl, hr]

theorem asBool_mirror (t : Term) :
  t.mirror.asBool = t.asBool
  := by cases t <;> rfl

theorem isValue_mirror (t : Term) :
  t.mirror.isValue = t.isValue
  := by cases t <;> rfl

/-- Different sides have different mirror images. -/
theorem mirror_equate (left right : Term) :
  (equate left right).mirror = equate right.mirror left.mirror
  := by
  have hsides : right.mirror = left.mirror ↔ left = right := by
    rw [mirror_involutive.injective.eq_iff, eq_comm]
  simp only [equate, hsides, isValue_mirror, Bool.and_comm right.isValue]
  split_ifs <;> rfl

theorem mirror_negate (t : Term) :
  (negate t).mirror = negate t.mirror
  := by
  cases t with
  | value v => cases v <;> rfl
  | _ => rfl

/-- What decides a connective from the left decides it from the right. -/
theorem mirror_connect (k : Connective) (left right : Term) :
  (connect k left right).mirror = connect k right.mirror left.mirror
  := by
  have hbool (b : Bool) : (bool b).mirror = bool b := rfl
  rcases absorbing_or_neutral_or_open k left with rfl | rfl | hl
  · rw [connect_absorbing_left, hbool, connect_absorbing_right]
  · rw [connect_neutral_left, hbool, connect_neutral_right]
  · rcases absorbing_or_neutral_or_open k right with rfl | rfl | hr
    · rw [connect_absorbing_right, hbool, connect_absorbing_left]
    · rw [connect_neutral_right, hbool, connect_neutral_left]
    · rw [connect_open hl hr, mirror_join, connect_open]
      · rw [asBool_mirror, hr]
      · rw [asBool_mirror, hl]

theorem simplify_mirror (env : Environment) (t : Term) :
  t.mirror.simplify env = (t.simplify env).mirror
  := by
  induction t using rec_join with
  | value v => rfl
  | identifier name =>
      rw [mirror, simplify]
      cases env.get? name <;> rfl
  | equation left right hl hr =>
      rw [mirror, simplify_equation, hl, hr, simplify_equation, mirror_equate]
  | not arg ih => rw [mirror, simplify_not, ih, simplify_not, mirror_negate]
  | join k left right hl hr =>
      rw [mirror_join, simplify_join, hl, hr, simplify_join, mirror_connect]

/-! ### Conjunction and disjunction -/

/-- The formula with the connectives and the truth values swapped. -/
def dual : Term → Term
  | .value v => .value v.dual
  | .identifier name => .identifier name
  | .equation left right => .equation left.dual right.dual
  | .not arg => .not arg.dual
  | .and left right => .or left.dual right.dual
  | .or left right => .and left.dual right.dual

/-- There is no equation in the formula. -/
def EquationFree : Term → Prop
  | .value _ | .identifier _ => True
  | .equation _ _ => False
  | .not arg => arg.EquationFree
  | .and left right | .or left right => left.EquationFree ∧ right.EquationFree

theorem dual_join (k : Connective) (left right : Term) :
  (k.join left right).dual = k.dual.join left.dual right.dual
  := by cases k <;> rfl

theorem equationFree_join :
  (k.join left right).EquationFree ↔ left.EquationFree ∧ right.EquationFree
  := by cases k <;> rfl

theorem asBool_dual (t : Term) :
  t.dual.asBool = t.asBool.map (!·)
  := by
  cases t with
  | value v => cases v <;> rfl
  | _ => rfl

theorem dual_negate (t : Term) :
  (negate t).dual = negate t.dual
  := by
  cases t with
  | value v => cases v <;> rfl
  | _ => rfl

/-- What absorbs in a connective absorbs as its dual in the other one, and likewise what is
neutral. -/
theorem dual_connect (k : Connective) (left right : Term) :
  (connect k left right).dual = connect k.dual left.dual right.dual
  := by
  have habsorbing : (bool k.absorbing).dual = bool k.dual.absorbing := by
    rw [k.absorbing_dual]
    rfl
  have hneutral : (bool !k.absorbing).dual = bool !k.dual.absorbing := by
    rw [k.absorbing_dual]
    rfl
  rcases absorbing_or_neutral_or_open k left with rfl | rfl | hl
  · rw [connect_absorbing_left, habsorbing, connect_absorbing_left]
  · rw [connect_neutral_left, hneutral, connect_neutral_left]
  · rcases absorbing_or_neutral_or_open k right with rfl | rfl | hr
    · rw [connect_absorbing_right, habsorbing, connect_absorbing_right]
    · rw [connect_neutral_right, hneutral, connect_neutral_right]
    · rw [connect_open hl hr, dual_join, connect_open]
      · rw [asBool_dual, hl, Option.map_none]
      · rw [asBool_dual, hr, Option.map_none]

theorem simplify_dual (env : Environment) (h : t.EquationFree) :
  t.dual.simplify env.dual = (t.simplify env).dual
  := by
  induction t using rec_join with
  | value v => rfl
  | identifier name =>
      rw [dual, simplify, simplify, Environment.dual, Table.get?_map]
      cases env.get? name <;> rfl
  | equation left right _ _ => exact absurd h not_false
  | not arg ih => rw [dual, simplify_not, ih h, simplify_not, dual_negate]
  | join k left right hl hr =>
      obtain ⟨hleft, hright⟩ := equationFree_join.mp h
      rw [dual_join, simplify_join, hl hleft, hr hright, simplify_join, dual_connect]

/-- The mirror image of a formula is simplified to the mirror image of the simplified formula.  If
there are no equations, its dual is simplified under the dual environment to the dual of the
simplified formula. -/
theorem simplify_symmetric (env : Environment) (t : Term) :
  t.mirror.simplify env = (t.simplify env).mirror
    ∧ (t.EquationFree → t.dual.simplify env.dual = (t.simplify env).dual)
  := ⟨simplify_mirror env t, simplify_dual env⟩

/-- A conjunction that is decided from the right, beside a text and a name that stays. -/
theorem simplify_symmetric_mixed :
  let env : Environment := (∅ : Environment).insert "x" (.bool true)
  let t : Term := .or (.and (.str "s") (.not (.identifier "x"))) (.and (.identifier "y") (.str "s"))
  t.EquationFree
    ∧ t.mirror.simplify env = .and (.str "s") (.identifier "y")
    ∧ t.dual.simplify env.dual = .or (.identifier "y") (.str "s")
  := by
  intro env t
  have hfree : t.EquationFree := ⟨⟨trivial, trivial⟩, trivial, trivial⟩
  obtain ⟨hmirror, hdual⟩ := simplify_symmetric env t
  have hsimplified : t.simplify env = .and (.identifier "y") (.str "s") := by decide
  rw [hmirror, hdual hfree, hsimplified]
  exact ⟨hfree, rfl, rfl⟩

/-- An equation of equal sides is true, and so is its dual. -/
example :
  let t : Term := .equation (.identifier "x") (.identifier "x")
  t.dual.simplify (Environment.dual ∅) ≠ (t.simplify ∅).dual
  := by decide

end Term

end Formulary
