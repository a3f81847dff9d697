import Formulary.Proofs.Formula.RoundTrip
import Formulary.Proofs.Term.Rewriting
import Mathlib.Tactic.Common

/-!
# Normal forms

A formula is *normal* under an environment where no rule of simplification applies to any part of
it.  Each rule makes a normal term of normal operands, so that every simplified formula is normal;
and each rule only rebuilds a node whose parts are as they are in a normal formula, so that the
normal formulas are just the ones that simplification leaves as they are
(`simplify_normalizes`).
-/

namespace Formulary.Term

/-- Whether the formula is a negation. -/
def isNegation : Term → Bool
  | .not _ => true
  | _ => false

/-- No name is bound, no operand of a negation or a connective is a truth value, no operand of a
negation is a negation, and no equation has equal sides or two values. -/
def Normal (env : Environment) : Term → Prop
  | .value _ => True
  | .identifier name => env.get? name = none
  | .equation left right =>
    (left ≠ right ∧ ¬(left.isValue ∧ right.isValue)) ∧ left.Normal env ∧ right.Normal env
  | .not arg => (arg.asBool = none ∧ ¬arg.isNegation) ∧ arg.Normal env
  | .and left right | .or left right =>
    (left.asBool = none ∧ right.asBool = none) ∧ left.Normal env ∧ right.Normal env

instance decidableNormal (env : Environment) : (t : Term) → Decidable (t.Normal env)
  | .value _ => .isTrue trivial
  | .identifier name => inferInstanceAs (Decidable (env.get? name = none))
  | .equation left right =>
    have := decidableNormal env left
    have := decidableNormal env right
    inferInstanceAs (Decidable ((_ ∧ ¬(_ ∧ _)) ∧ left.Normal env ∧ right.Normal env))
  | .not arg =>
    have := decidableNormal env arg
    inferInstanceAs (Decidable ((arg.asBool = none ∧ ¬_) ∧ arg.Normal env))
  | .and left right | .or left right =>
    have := decidableNormal env left
    have := decidableNormal env right
    inferInstanceAs (Decidable
      ((left.asBool = none ∧ right.asBool = none) ∧ left.Normal env ∧ right.Normal env))

variable {env : Environment} {k : Connective} {left right t : Term}

theorem normal_join :
  (k.join left right).Normal env
    ↔ (left.asBool = none ∧ right.asBool = none) ∧ left.Normal env ∧ right.Normal env
  := by cases k <;> rfl

/-! ### The rules make normal terms of normal operands -/

theorem Normal.equate (hl : left.Normal env) (hr : right.Normal env) :
  (equate left right).Normal env
  := by
  unfold Term.equate
  split_ifs with hsides hvalues
  · trivial
  · trivial
  · exact ⟨⟨hsides, by simpa using hvalues⟩, hl, hr⟩

/-- What stands within a negation that is normal is no negation, so that stripping a double negation
exposes nothing. -/
theorem Normal.negate (h : t.Normal env) :
  (negate t).Normal env
  := by
  cases t with
  | not inner => apply h.2
  | value v =>
      cases v with
      | bool b => trivial
      | str s => exact ⟨⟨rfl, Bool.false_ne_true⟩, h⟩
  | _ => exact ⟨⟨rfl, Bool.false_ne_true⟩, h⟩

theorem Normal.connect (hl : left.Normal env) (hr : right.Normal env) :
  (connect k left right).Normal env
  := by
  rcases absorbing_or_neutral_or_open k left with rfl | rfl | hleft
  · rwa [connect_absorbing_left]
  · rwa [connect_neutral_left]
  · rcases absorbing_or_neutral_or_open k right with rfl | rfl | hright
    · rwa [connect_absorbing_right]
    · rwa [connect_neutral_right]
    · rw [connect_open hleft hright]
      apply normal_join.mpr ⟨⟨hleft, hright⟩, hl, hr⟩

/-- Every simplified formula is normal. -/
theorem normal_simplify (env : Environment) (t : Term) :
  (t.simplify env).Normal env
  := by
  induction t using rec_join with
  | value v => trivial
  | identifier name =>
      rw [simplify]
      cases h : env.get? name with
      | none => apply h
      | some v => trivial
  | equation left right hl hr =>
      rw [simplify_equation]
      apply hl.equate hr
  | not arg ih =>
      rw [simplify_not]
      apply ih.negate
  | join k left right hl hr =>
      rw [simplify_join]
      apply hl.connect hr

/-! ### The rules add no names -/

theorem names_equate_sublist (left right : Term) :
  (equate left right).names.Sublist (left.names ++ right.names)
  := by
  unfold equate
  split_ifs
  · apply List.nil_sublist
  · apply List.nil_sublist
  · apply List.Sublist.refl

theorem names_negate_sublist (t : Term) :
  (negate t).names.Sublist t.names
  := by
  unfold negate
  split
  · apply List.nil_sublist
  · apply List.Sublist.refl
  · apply List.Sublist.refl

theorem names_connect_sublist (k : Connective) (left right : Term) :
  (connect k left right).names.Sublist (left.names ++ right.names)
  := by
  rcases connect_eq_operand_or_join k left right with h | h | h
  · rw [h]
    apply List.sublist_append_left
  · rw [h]
    apply List.sublist_append_right
  · rw [h, names_join]

/-- The names that are left occur in the formula, in the same order. -/
theorem names_simplify_sublist (env : Environment) (t : Term) :
  (t.simplify env).names.Sublist t.names
  := by
  induction t using rec_join with
  | value v => apply List.Sublist.refl
  | identifier name =>
      rw [simplify]
      cases env.get? name with
      | none => apply List.Sublist.refl
      | some v => apply List.nil_sublist
  | equation left right hl hr =>
      rw [simplify_equation]
      apply (names_equate_sublist _ _).trans (hl.append hr)
  | not arg ih =>
      rw [simplify_not]
      apply (names_negate_sublist _).trans ih
  | join k left right hl hr =>
      rw [simplify_join, names_join]
      apply (names_connect_sublist k _ _).trans (hl.append hr)

/-! ### Normal formulas stay as they are -/

theorem negate_of_open (hbool : t.asBool = none) (hnot : ¬t.isNegation) :
  negate t = not t
  := by
  cases t with
  | not inner => exact absurd rfl hnot
  | value v =>
      cases v with
      | bool b => cases hbool
      | str s => rfl
  | _ => rfl

theorem Normal.simplify_eq (h : t.Normal env) :
  t.simplify env = t
  := by
  induction t using rec_join with
  | value v => rfl
  | identifier name =>
      have hname : env.get? name = none := h
      rw [simplify, hname]
  | equation left right ihl ihr =>
      obtain ⟨⟨hsides, hvalues⟩, hl, hr⟩ := h
      rw [simplify_equation, ihl hl, ihr hr, equate_of_ne hsides hvalues]
  | not arg ih =>
      obtain ⟨⟨hbool, hnot⟩, harg⟩ := h
      rw [simplify_not, ih harg, negate_of_open hbool hnot]
  | join k left right ihl ihr =>
      obtain ⟨⟨hleft, hright⟩, hl, hr⟩ := normal_join.mp h
      rw [simplify_join, ihl hl, ihr hr, connect_open hleft hright]

/-- A simplified formula is normal and has no names but those of the formula; and a formula is
normal just when simplification leaves it as it is. -/
theorem simplify_normalizes (env : Environment) (t : Term) :
  (t.simplify env).Normal env
    ∧ (t.simplify env).names.Sublist t.names
    ∧ (t.simplify env = t ↔ t.Normal env)
  := by
  use normal_simplify env t, names_simplify_sublist env t
  constructor
  · intro h
    rw [← h]
    apply normal_simplify
  · intro h
    apply h.simplify_eq

/-- A text is no truth value, so that it may stand under a negation or a connective. -/
example : Normal ∅ (.not (.and (.str "s") (.equation (.identifier "x") (.str "s")))) := by decide

end Formulary.Term
