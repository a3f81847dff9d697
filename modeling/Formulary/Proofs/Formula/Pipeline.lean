import Formulary.Proofs.Formula.RoundTrip
import Formulary.Proofs.Tape.Supply
import Formulary.Proofs.Term.Staging

/-!
# Formulas that are read, simplified and written

A formula that is read is legible, whatever it is read from, and simplification keeps it legible
where the texts of the environment are.  So the simplified formula is read back from its written
form.  Since simplification changes nothing the second time, the written result is a fixed point:
fed back in with the same environment it reproduces itself (`readFormula_stable`).
-/

namespace Formulary

/-- No bound text ends with a backslash. -/
def Environment.Legible (env : Environment) : Prop :=
  ∀ name s, env.get? name = some (.str s) → s.toList.getLast? ≠ some '\\'

namespace Term

variable {env : Environment} {k : Connective} {left right t : Term}

/-! ### Simplified formulas are legible -/

theorem legible_bool (b : Bool) :
  (bool b).Legible
  := by constructor <;> simp [bool, names, texts]

theorem Legible.equate (hl : left.Legible) (hr : right.Legible) :
  (equate left right).Legible
  := by
  unfold Term.equate
  split_ifs
  · apply legible_bool
  · apply legible_bool
  · apply legible_equation.mpr ⟨hl, hr⟩

theorem Legible.negate (h : t.Legible) :
  (negate t).Legible
  := by
  unfold Term.negate
  split
  · apply legible_bool
  · apply legible_not.mp h
  · apply legible_not.mpr h

theorem Legible.connect (hl : left.Legible) (hr : right.Legible) :
  (connect k left right).Legible
  := by
  rcases connect_eq_operand_or_join k left right with h | h | h
  · rwa [h]
  · rwa [h]
  · rw [h]
    apply legible_join.mpr ⟨hl, hr⟩

/-- What comes from the environment is legible too. -/
theorem Legible.simplify (henv : env.Legible) (h : t.Legible) :
  (t.simplify env).Legible
  := by
  induction t using rec_join with
  | value v => apply h
  | identifier name =>
      rw [Term.simplify]
      cases hname : env.get? name with
      | none => apply h
      | some v =>
          cases v with
          | bool b => apply legible_bool
          | str s =>
              constructor
              · simp [Term.names]
              · simpa [Term.texts] using henv name s hname
  | equation left right ihl ihr =>
      obtain ⟨hl, hr⟩ := legible_equation.mp h
      rw [simplify_equation]
      apply (ihl hl).equate (ihr hr)
  | not arg ih =>
      rw [simplify_not]
      apply (ih (legible_not.mp h)).negate
  | join k left right ihl ihr =>
      obtain ⟨hl, hr⟩ := legible_join.mp h
      rw [simplify_join]
      apply (ihl hl).connect (ihr hr)

end Term

/-! ### What is read and what is read back -/

/-- A formula that is read is legible. -/
theorem legible_of_readFormula {tape : Tape} {text rest : List Char} {c : Cursor}
    {reading : Reading Term} (h : tape.Spells text) (hc : tape.Stands text c rest)
    (hread : (readFormula c tape).1 = .ok reading) :
  reading.value.Legible
  := by
  rw [readFormula_eq h hc] at hread
  cases hscan : Formula.formulaScan.read rest with
  | none =>
      rw [hscan] at hread
      cases hread
  | some found =>
      rw [hscan] at hread
      cases hread
      apply (Formula.sound_formulaScan hscan).legible

/-- A formula that is read from any input is legible.  Simplified under any environment whose texts
do not end with a backslash it stays legible, its written form is read as it with nothing left over,
and to simplify it once more changes nothing. -/
theorem readFormula_stable {start : Cursor} {tape : Tape} {reading : Reading Term}
    (hbegins : Tape.Begins start tape) (hread : (readFormula start tape).1 = .ok reading) :
  reading.value.Legible
    ∧ ∀ env : Environment, env.Legible →
        (reading.value.simplify env).Legible
          ∧ (parseFormula (reading.value.simplify env).render).1
              = .ok ⟨reading.value.simplify env, ""⟩
          ∧ (reading.value.simplify env).simplify env = reading.value.simplify env
  := by
  obtain ⟨text, hspells, hstands⟩ := hbegins.exists_spells
  have hlegible := legible_of_readFormula hspells hstands hread
  use hlegible
  intro env henv
  have hsimplified := hlegible.simplify henv
  refine ⟨hsimplified, ?_, Term.simplify_simplify env reading.value⟩
  rw [parseFormula_eq, Formula.formulaScan_render hsimplified]
  rfl

/-- `NOT x1=_y2` is read from the lines of a file, and simplified where `_y2` is a text. -/
theorem readFormula_stable_negation :
  let start := Tape.ofSupply (.lines (.ofBytes "NOT x1=_y2\n".toUTF8.toList none))
  let env : Environment := (∅ : Environment).insert "_y2" (.str "b")
  let s : Term := .not (.equation (.identifier "x1") (.str "b"))
  (readFormula start.1 start.2).1
      = .ok ⟨.not (.equation (.identifier "x1") (.identifier "_y2")), ""⟩
    ∧ s.Legible ∧ (parseFormula s.render).1 = .ok ⟨s, ""⟩ ∧ s.simplify env = s
  := by
  intro start env s
  have hread : (readFormula start.1 start.2).1
      = .ok ⟨.not (.equation (.identifier "x1") (.identifier "_y2")), ""⟩ := by decide +kernel
  have henv : env.Legible := by
    intro name s h
    rw [Table.get?_insert] at h
    split_ifs at h
    · cases h
      decide
    · cases h
  use hread
  apply (readFormula_stable (.stream _) hread).2 env henv

end Formulary
