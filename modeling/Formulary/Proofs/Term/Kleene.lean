import Formulary.Proofs.Term.Rewriting
import Mathlib.Tactic.Common

/-!
# Evaluation under partial information

`Term.evaluate` is strong Kleene evaluation under an environment that need not bind every name: a
term has a value only where its bindings decide one.  A connective is decided by one absorbing
operand whatever the other one is, an equation by the values of both sides.

Simplification keeps every value that a term has under an environment with at least the same
bindings, and a term that has a value under the environment itself is simplified to it
(`evaluate_simplify`).
-/

namespace Formulary

/-- The connective on values that may be missing.  The absorbing truth value decides it from either
side, two truth values that are not absorbing give that truth value, and nothing else a value. -/
def Connective.combine (k : Connective) (a b : Option Value) : Option Value :=
  if a = some (.bool k.absorbing) ∨ b = some (.bool k.absorbing) then some (.bool k.absorbing)
  else if a = some (.bool !k.absorbing) ∧ b = some (.bool !k.absorbing) then
    some (.bool !k.absorbing)
  else none

namespace Connective

variable {k : Connective} {a b : Option Value} {v : Value}

/-- A connective has a value where an operand is absorbing, or where both are neutral. -/
theorem mem_combine :
  v ∈ k.combine a b
    ↔ v = .bool k.absorbing ∧ (.bool k.absorbing ∈ a ∨ .bool k.absorbing ∈ b)
      ∨ v = .bool (!k.absorbing) ∧ .bool (!k.absorbing) ∈ a ∧ .bool (!k.absorbing) ∈ b
  := by
  have hne (o : Option Value) (h : .bool k.absorbing ∈ o) : .bool (!k.absorbing) ∉ o := by
    intro h'
    simpa using Option.mem_unique h h'
  rw [combine]
  split_ifs with ha hn
  · constructor
    · intro hv
      exact .inl ⟨(Option.some.inj hv).symm, ha⟩
    · rintro (⟨rfl, -⟩ | ⟨-, hl, hr⟩)
      · rfl
      · rcases ha with ha | ha
        · exact absurd hl (hne a ha)
        · exact absurd hr (hne b ha)
  · constructor
    · intro hv
      exact .inr ⟨(Option.some.inj hv).symm, hn⟩
    · rintro (⟨-, h⟩ | ⟨rfl, -⟩)
      · exact absurd h ha
      · rfl
  · constructor
    · intro hv
      cases hv
    · rintro (⟨-, h⟩ | ⟨-, h⟩)
      · exact absurd h ha
      · exact absurd h hn

theorem combine_comm (k : Connective) (a b : Option Value) :
  k.combine a b = k.combine b a
  := by simp only [combine, or_comm, and_comm]

theorem combine_absorbing (k : Connective) (b : Option Value) :
  k.combine (some (.bool k.absorbing)) b = some (.bool k.absorbing)
  := by simp [combine]

theorem mem_of_mem_combine_neutral (h : v ∈ k.combine (some (.bool !k.absorbing)) b) :
  v ∈ b
  := by
  rcases mem_combine.mp h with ⟨rfl, h | h⟩ | ⟨rfl, -, h⟩
  · simp at h
  · apply h
  · apply h

/-- More values of the operands leave a value of a connective as it is. -/
theorem combine_mono {a' b' : Option Value} (ha : ∀ w ∈ a, w ∈ a') (hb : ∀ w ∈ b, w ∈ b')
    (h : v ∈ k.combine a b) :
  v ∈ k.combine a' b'
  := by
  apply mem_combine.mpr
  rcases mem_combine.mp h with ⟨hv, h⟩ | ⟨hv, hl, hr⟩
  · exact .inl ⟨hv, h.imp (ha _) (hb _)⟩
  · exact .inr ⟨hv, ha _ hl, hb _ hr⟩

end Connective

/-- Every binding of `env` is one of `s`. -/
def Environment.Extends (s env : Environment) : Prop :=
  ∀ name, ∀ v ∈ env.get? name, v ∈ s.get? name

/-- Binding a name that is unbound extends an environment. -/
theorem Environment.extends_insert {env : Environment} {name : String} (v : Value)
    (h : env.get? name = none) :
  Extends (env.insert name v) env
  := by
  intro other w hw
  rw [Table.get?_insert]
  by_cases ho : other = name
  · subst ho
    rw [h] at hw
    cases hw
  · rwa [if_neg ho]

namespace Term

/-- The value of a term, as far as the bindings of `s` decide it. -/
def evaluate (s : Environment) : Term → Option Value
  | .value v => some v
  | .identifier name => s.get? name
  | .equation left right =>
    match left.evaluate s, right.evaluate s with
    | some a, some b => some (.bool (a = b))
    | _, _ => none
  | .not arg =>
    match arg.evaluate s with
    | some (.bool b) => some (.bool !b)
    | _ => none
  | .and left right => Connective.and.combine (left.evaluate s) (right.evaluate s)
  | .or left right => Connective.or.combine (left.evaluate s) (right.evaluate s)

variable {s : Environment}

theorem evaluate_bool (s : Environment) (b : Bool) :
  (bool b).evaluate s = some (.bool b)
  := rfl

theorem evaluate_join (s : Environment) (k : Connective) (left right : Term) :
  (k.join left right).evaluate s = k.combine (left.evaluate s) (right.evaluate s)
  := by cases k <;> rfl

/-! ### What a value says about the operands -/

theorem mem_evaluate_equation {left right : Term} {v : Value} :
  v ∈ (equation left right).evaluate s
    ↔ ∃ a ∈ left.evaluate s, ∃ b ∈ right.evaluate s, v = .bool (a = b)
  := by
  rw [evaluate]
  rcases left.evaluate s with _ | a
  · simp
  · rcases right.evaluate s with _ | b
    · simp
    · simp [eq_comm]

theorem mem_evaluate_not {arg : Term} {v : Value} :
  v ∈ (not arg).evaluate s ↔ ∃ b, .bool b ∈ arg.evaluate s ∧ v = .bool !b
  := by
  rw [evaluate]
  rcases arg.evaluate s with _ | _ | _
  · simp
  · simp [eq_comm]
  · simp

/-! ### The rules keep values -/

theorem evaluate_equate {left right : Term} {v : Value}
    (h : v ∈ (equation left right).evaluate s) :
  v ∈ (equate left right).evaluate s
  := by
  obtain ⟨a, ha, b, hb, rfl⟩ := mem_evaluate_equation.mp h
  rw [equate]
  split_ifs with hs hv
  · subst hs
    obtain rfl := Option.mem_unique ha hb
    simp [bool, evaluate]
  · -- two different values are their own values
    obtain ⟨hl, hr⟩ := Bool.and_eq_true_iff.mp hv
    obtain ⟨x, rfl⟩ := isValue_iff.mp hl
    obtain ⟨y, rfl⟩ := isValue_iff.mp hr
    obtain rfl : x = a := Option.some.inj ha
    obtain rfl : y = b := Option.some.inj hb
    have hne : x ≠ y := fun hxy => hs (congrArg value hxy)
    rw [evaluate_bool, decide_eq_false hne]
    rfl
  · apply h

theorem evaluate_negate {arg : Term} {v : Value} (h : v ∈ (not arg).evaluate s) :
  v ∈ (negate arg).evaluate s
  := by
  cases arg with
  | not inner =>
      obtain ⟨b, hb, rfl⟩ := mem_evaluate_not.mp h
      obtain ⟨c, hc, hbc⟩ := mem_evaluate_not.mp hb
      obtain rfl := Value.bool.inj hbc
      rw [negate, Bool.not_not]
      apply hc
  | value w =>
      cases w with
      | bool b => apply h
      | str x => apply h
  | _ => apply h

theorem evaluate_connect {k : Connective} {left right : Term} {v : Value}
    (h : v ∈ (k.join left right).evaluate s) :
  v ∈ (connect k left right).evaluate s
  := by
  rw [evaluate_join] at h
  rcases absorbing_or_neutral_or_open k left with rfl | rfl | hl
  · rw [connect_absorbing_left]
    rwa [evaluate_bool, Connective.combine_absorbing] at h
  · rw [connect_neutral_left]
    apply Connective.mem_of_mem_combine_neutral h
  · rcases absorbing_or_neutral_or_open k right with rfl | rfl | hr
    · rw [connect_absorbing_right]
      rwa [evaluate_bool, Connective.combine_comm, Connective.combine_absorbing] at h
    · rw [connect_neutral_right]
      rw [evaluate_bool, Connective.combine_comm] at h
      apply Connective.mem_of_mem_combine_neutral h
    · rw [connect_open hl hr, evaluate_join]
      apply h

/-! ### The rules decide what has a value -/

/-- A connective of operands that are their values where they have one is its value if it has
one. -/
theorem connect_of_mem_combine {k : Connective} {left right : Term} {a b : Option Value} {v : Value}
    (hl : ∀ w ∈ a, left = value w) (hr : ∀ w ∈ b, right = value w) (h : v ∈ k.combine a b) :
  connect k left right = value v
  := by
  rcases Connective.mem_combine.mp h with ⟨rfl, h | h⟩ | ⟨rfl, h, h'⟩
  · rw [hl _ h]
    apply connect_absorbing_left
  · rw [hr _ h]
    apply connect_absorbing_right
  · rw [hl _ h, hr _ h']
    apply connect_neutral_left

/-! ### Simplification -/

/-- A value under an environment is kept when the term is simplified under some of its bindings. -/
theorem mem_evaluate_simplify {env s : Environment} (hs : s.Extends env) {t : Term} {v : Value}
    (h : v ∈ t.evaluate s) :
  v ∈ (t.simplify env).evaluate s
  := by
  induction t using rec_join generalizing v with
  | value w => apply h
  | identifier name =>
      rw [simplify]
      cases hn : env.get? name with
      | some w =>
          obtain rfl := Option.mem_unique h (hs name w hn)
          rfl
      | none => apply h
  | equation left right hl hr =>
      obtain ⟨a, ha, b, hb, hv⟩ := mem_evaluate_equation.mp h
      rw [simplify_equation]
      apply evaluate_equate
      apply mem_evaluate_equation.mpr
      use a, hl ha, b, hr hb, hv
  | not arg ih =>
      obtain ⟨b, hb, hv⟩ := mem_evaluate_not.mp h
      rw [simplify_not]
      apply evaluate_negate
      apply mem_evaluate_not.mpr
      use b, ih hb, hv
  | join k left right hl hr =>
      rw [evaluate_join] at h
      rw [simplify_join]
      apply evaluate_connect
      rw [evaluate_join]
      apply Connective.combine_mono (fun _ => hl) (fun _ => hr) h

/-- A term that the bindings decide is simplified to its value. -/
theorem simplify_of_mem_evaluate {env : Environment} {t : Term} {v : Value}
    (h : v ∈ t.evaluate env) :
  t.simplify env = value v
  := by
  induction t using rec_join generalizing v with
  | value w =>
      rw [Option.some.inj h]
      apply simplify_value
  | identifier name =>
      have hname : env.get? name = some v := h
      rw [simplify, hname]
  | equation left right hl hr =>
      obtain ⟨a, ha, b, hb, rfl⟩ := mem_evaluate_equation.mp h
      rw [simplify_equation, hl ha, hr hb, equate_value]
      rfl
  | not arg ih =>
      obtain ⟨b, hb, rfl⟩ := mem_evaluate_not.mp h
      rw [simplify_not, ih hb]
      rfl
  | join k left right hl hr =>
      rw [evaluate_join] at h
      rw [simplify_join]
      apply connect_of_mem_combine (fun _ => hl) (fun _ => hr) h

/-- A term that has a value under `s` keeps it when it is simplified under bindings of `s`, and a
term that has a value under the bindings themselves is simplified to this value. -/
theorem evaluate_simplify {env s : Environment} (hs : s.Extends env) (t : Term) :
  (∀ v, t.evaluate s = some v → (t.simplify env).evaluate s = some v)
    ∧ ∀ v, t.evaluate env = some v → t.simplify env = value v
  := by
  constructor
  · intro v h
    apply mem_evaluate_simplify hs h
  · intro v h
    apply simplify_of_mem_evaluate h

/-- `NOT (x AND "s") OR y = z` is true where `x` is false, also with a text as an operand and with
nothing known of `z`. -/
theorem evaluate_simplify_undecided_side :
  let env : Environment := (∅ : Environment).insert "x" (.bool false)
  let s : Environment := env.insert "y" (.bool true)
  let t : Term := .or (.not (.and (.identifier "x") (.str "s")))
    (.equation (.identifier "y") (.identifier "z"))
  s.Extends env ∧ (t.simplify env).evaluate s = some (.bool true)
    ∧ t.simplify env = .value (.bool true)
  := by
  intro env s t
  have hs : s.Extends env := Environment.extends_insert _ (by decide)
  have h := evaluate_simplify hs t
  use hs, h.1 _ (by decide)
  apply h.2 _ (by decide)

end Term

end Formulary
