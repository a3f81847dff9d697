import Formulary.Proofs.Formula.Scanning
import Formulary.Reading

/-!
# What whole inputs are read as

A reading is what the scan of a parser reads, with the rest without the spaces before it.
-/

namespace Formulary

open Formulary.Parser

variable {α : Type} {tape : Tape} {text rest : List Char} {c : Cursor}

/-- The reading that the outcome of a scan comes to. -/
def Scan.finish : Option (α × List Char) → Except Error (Reading α)
  | none => .error .unparseable
  | some (value, rest) => .ok ⟨value, String.ofList (rest.dropWhile isSpace)⟩

theorem Scan.finish_eq_ok {found : Option (α × List Char)} {reading : Reading α} :
  Scan.finish found = .ok reading
    ↔ ∃ rest, found = some (reading.value, rest)
        ∧ reading.remaining = String.ofList (rest.dropWhile isSpace)
  := by
  obtain _ | ⟨a, rest⟩ := found
  · simp [Scan.finish]
  · obtain ⟨value, remaining⟩ := reading
    simp [Scan.finish, eq_comm]

/-- From any cursor on any tape the reading is that of the scan. -/
theorem finish_eq {p : Parser α} {f : Scan α} (hp : Denotes p f) (h : tape.Spells text)
    (hc : tape.Stands text c rest) :
  (finish (p.run c tape)).1 = Scan.finish (f.read rest)
  := by
  have hread := hp h hc
  generalize p.run c tape = outcome, f.read rest = expected at hread ⊢
  cases hread with
  | failure leads => rfl
  | @success a _ c' tape' moves =>
      obtain ⟨spacesScan, hspaces, hpassed⟩ := denotes_spaces
      have hread' := hspaces moves.leads.spells moves.stands
      have hfinish : (finish (.success a c', tape')).1
          = .ok ⟨a, ((spaces.run c' tape').2.rest (spaces.run c' tape').1.remaining).1⟩ := rfl
      rw [hpassed] at hread'
      rw [hfinish]
      generalize spaces.run c' tape' = outcome' at hread' ⊢
      cases hread' with
      | success moves' =>
          simp only [Result.remaining, Scan.finish]
          rw [Tape.rest_eq moves'.leads.spells moves'.stands]

theorem readFormula_eq (h : tape.Spells text) (hc : tape.Stands text c rest) :
  (readFormula c tape).1 = Scan.finish (Formula.formulaScan.read rest)
  := by
  rw [← finish_eq Formula.denotes_formula h hc, readFormula]
  generalize finish (Formula.formula.run c tape) = outcome
  obtain ⟨_ | _, _⟩ := outcome <;> rfl

theorem parseFormula_eq (text : String) :
  (parseFormula text).1 = Scan.finish (Formula.formulaScan.read text.toList)
  := by
  rw [← readFormula_eq (Tape.ofText_spells text) (Tape.ofText_stands text)]
  simp only [parseFormula]

end Formulary
