import Formulary.Proofs.Term.Rewriting
import Mathlib.Tactic.Common

/-!
# Simplification in stages

Simplifying under one environment and then under another is simplifying once under both, where the
first environment goes before the second (`simplify_staged`).  With one environment taken twice,
simplification changes nothing the second time; with two environments that bind different names, it
does not matter which of them is known first.

The rules of simplification commute with simplification.  This is so for the rule of negation since
a simplified term is the negation of neither a truth value nor a negation, so that negating it twice
gives it back.
-/

namespace Formulary

/-! ### One environment before another -/

/-- The assignments of `first`, and those of `second` to the names that `first` does not have. -/
def Table.orElse {α : Type} (first second : Table α) : Table α :=
  first.entries.foldr (fun e t => t.insert e.1 e.2) second

theorem Table.get?_orElse {α : Type} (first second : Table α) (name : String) :
  (first.orElse second).get? name = (first.get? name).or (second.get? name)
  := by
  obtain ⟨entries, ordered⟩ := first
  simp only [orElse, get?]
  clear ordered
  induction entries with
  | nil => rfl
  | cons e es ih =>
      rw [List.foldr_cons, lookup_cons_eq_ite]
      apply Eq.trans (get?_insert _ _ _ _)
      by_cases h : name = e.1
      · rw [if_pos h, if_pos h]
        rfl
      · rw [if_neg h, if_neg h]
        apply ih

namespace Term

/-! ### The rules commute with simplification -/

theorem simplify_equate (env : Environment) (left right : Term) :
  (equate left right).simplify env = equate (left.simplify env) (right.simplify env)
  := by
  by_cases h : left = right
  · rw [h, equate_self, equate_self]
    rfl
  · by_cases hv : left.isValue ∧ right.isValue
    · -- two values are simplified already
      obtain ⟨a, rfl⟩ := isValue_iff.mp hv.1
      obtain ⟨b, rfl⟩ := isValue_iff.mp hv.2
      rw [simplify_value, simplify_value, equate_value]
      rfl
    · rw [equate_of_ne h hv, simplify_equation]

theorem simplify_connect (env : Environment) (k : Connective) (left right : Term) :
  (connect k left right).simplify env = connect k (left.simplify env) (right.simplify env)
  := by
  have hbool (b : Bool) : (bool b).simplify env = bool b := rfl
  rcases absorbing_or_neutral_or_open k left with rfl | rfl | hl
  · rw [hbool, connect_absorbing_left, connect_absorbing_left, hbool]
  · rw [hbool, connect_neutral_left, connect_neutral_left]
  · rcases absorbing_or_neutral_or_open k right with rfl | rfl | hr
    · rw [hbool, connect_absorbing_right, connect_absorbing_right, hbool]
    · rw [hbool, connect_neutral_right, connect_neutral_right]
    · rw [connect_open hl hr, simplify_join]

/-- Negating a simplified term twice gives it back. -/
theorem negate_negate_simplify (env : Environment) (t : Term) :
  negate (negate (t.simplify env)) = t.simplify env
  := by
  have hvalue (v : Value) : negate (negate (value v)) = value v := by
    cases v with
    | bool b => simp [negate, bool]
    | str s => rfl
  induction t using rec_join with
  | value v => apply hvalue
  | identifier name =>
      rw [simplify]
      cases env.get? name with
      | some v => apply hvalue
      | none => rfl
  | equation left right _ _ =>
      rw [simplify_equation, equate]
      split_ifs
      · apply hvalue
      · apply hvalue
      · rfl
  | not arg ih => rw [simplify_not, ih]
  | join k left right hl hr =>
      rw [simplify_join]
      rcases connect_eq_operand_or_join k (left.simplify env) (right.simplify env) with h | h | h
      · rw [h, hl]
      · rw [h, hr]
      · rw [h]
        cases k <;> rfl

theorem simplify_negate (env : Environment) (t : Term) :
  (negate t).simplify env = negate (t.simplify env)
  := by
  cases t with
  | not inner => rw [simplify_not, negate_negate_simplify, negate]
  | value v => cases v <;> rfl
  | _ => rfl

/-! ### Two stages -/

/-- Simplifying under `first` and then under `second` is simplifying under any environment that looks
a name up in `first`, and in `second` where `first` does not bind it. -/
theorem simplify_simplify_of_or {first second both : Environment}
    (h : ∀ name, both.get? name = (first.get? name).or (second.get? name)) (t : Term) :
  (t.simplify first).simplify second = t.simplify both
  := by
  induction t using rec_join with
  | value v => rfl
  | identifier name =>
      rw [simplify, simplify, h]
      cases hname : first.get? name with
      | some v => rfl
      | none => rfl
  | equation left right hl hr => rw [simplify_equation, simplify_equate, hl, hr, simplify_equation]
  | not arg ih => rw [simplify_not, simplify_negate, ih, simplify_not]
  | join k left right hl hr => rw [simplify_join, simplify_connect, hl, hr, simplify_join]

/-- Simplification changes nothing the second time. -/
theorem simplify_simplify (env : Environment) (t : Term) :
  (t.simplify env).simplify env = t.simplify env
  := by
  apply simplify_simplify_of_or
  intro name
  rw [Option.or_self]

/-- There is an environment under which simplifying once is simplifying under `first` and then under
`second`: the one that looks a name up in `first`, and in `second` where `first` does not bind it. -/
theorem simplify_staged (first second : Environment) :
  (∀ name, (first.orElse second).get? name = (first.get? name).or (second.get? name))
    ∧ ∀ t : Term, (t.simplify first).simplify second = t.simplify (first.orElse second)
  := by
  use Table.get?_orElse first second
  apply simplify_simplify_of_or (Table.get?_orElse first second)

end Term

end Formulary
