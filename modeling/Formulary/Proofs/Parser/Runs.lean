import Formulary.Proofs.Parser.Words

/-!
# Runs of word characters

The code points of which words consist come in runs, as long as they can be.  A word that stands at
a place is the next run there (`WordAt.runs_eq`), since a word is as long as it can be, and so is
what comes before it.
-/

namespace Formulary

variable {xs ys rest : List Char} {y : Char} {word : String}

/-- The runs of word characters in a text, from left to right, each as long as it can be. -/
def runs (xs : List Char) : List String :=
  ((xs.splitOnP fun x => !isIdentifierChar x).filter (· ≠ [])).map String.ofList

theorem runs_nil :
  runs [] = []
  := by decide

/-- No run goes over a code point that is no word character. -/
theorem runs_append_cons (hy : ¬isIdentifierChar y) (xs ys : List Char) :
  runs (xs ++ y :: ys) = runs xs ++ runs ys
  := by
  have hy' : !isIdentifierChar y := by simpa using hy
  have hsplit := List.splitOnP_append_cons (p := fun x => !isIdentifierChar x) xs ys hy'
  rw [runs, hsplit, List.filter_append, List.map_append]
  rfl

theorem runs_cons (hy : ¬isIdentifierChar y) (ys : List Char) :
  runs (y :: ys) = runs ys
  := runs_append_cons hy [] ys

theorem runs_append (h : EndsWord ys) (xs : List Char) :
  runs (xs ++ ys) = runs xs ++ runs ys
  := by
  cases ys with
  | nil => rw [runs_nil, List.append_nil, List.append_nil]
  | cons y ys =>
      have hy : ¬isIdentifierChar y := h y rfl
      rw [runs_append_cons hy, runs_cons hy]

/-- There are no runs in spaces. -/
theorem Gap.runs_eq (h : Gap xs ys) :
  runs xs = runs ys
  := by
  obtain ⟨spaces, hspaces, rfl⟩ := h
  induction spaces with
  | nil => rfl
  | cons x spaces ih =>
      rw [List.forall_mem_cons] at hspaces
      rw [List.cons_append, runs_cons (not_isIdentifierChar_of_isSpace hspaces.1), ih hspaces.2]

theorem Gap.runs_cons (h : Gap xs (y :: ys)) (hy : ¬isIdentifierChar y) :
  runs xs = runs ys
  := by rw [h.runs_eq, Formulary.runs_cons hy]

theorem isIdentifierChar_of_isWord (h : IsWord xs) :
  ∀ x ∈ xs, isIdentifierChar x
  := by
  cases xs with
  | nil => cases h
  | cons x xs =>
      have hx : isIdentifierChar x := by
        rw [isIdentifierChar, h.1, Bool.true_or]
      exact List.forall_mem_cons.mpr ⟨hx, h.2⟩

/-- A word that stands at a place is the next run. -/
theorem WordAt.runs_eq (h : WordAt xs word rest) :
  runs xs = word :: runs rest
  := by
  have hne : word.toList ≠ [] := by
    intro hnil
    have hword := h.isWord
    rw [hnil] at hword
    apply hword
  have hchars : ∀ x ∈ word.toList, (!isIdentifierChar x) = false := by
    intro x hx
    rw [isIdentifierChar_of_isWord h.isWord x hx, Bool.not_true]
  have hword : runs word.toList = [word] := by
    rw [runs, List.splitOnP_eq_singleton hchars]
    simp [hne]
  rw [h.gap.runs_eq, runs_append h.ends, hword]
  rfl

end Formulary
