/-!
# Sets of code points

A set of code points is held as its ranges, in ascending order and with gaps between them.  A search
can stop at the first range that ends at or after the number it looks for, and it finds a code point
exactly if one of the ranges covers it (`contains_iff`).
-/

namespace Formulary

namespace CodePointSet

/-- Whether each range ends no earlier than it begins, and the next one begins after a gap. -/
def isAscending : List (Nat × Nat) → Bool
  | [] => true
  | [r] => r.1 ≤ r.2
  | r :: s :: rs => r.1 ≤ r.2 && r.2 + 1 < s.1 && isAscending (s :: rs)

end CodePointSet

/-- A set of code points, as the first and the last number of each of its ranges. -/
structure CodePointSet where
  ranges : List (Nat × Nat)
  ascending : CodePointSet.isAscending ranges = true

namespace CodePointSet

/-- Whether one of the ranges, which ascend, covers `n`. -/
def covers (n : Nat) : List (Nat × Nat) → Bool
  | [] => false
  | r :: rs => if n ≤ r.2 then r.1 ≤ n else covers n rs

/-- Whether `c` is in the set. -/
def contains (s : CodePointSet) (c : Char) : Bool := covers c.toNat s.ranges

theorem isAscending_tail {r : Nat × Nat} {rs : List (Nat × Nat)} (h : isAscending (r :: rs) = true) :
  isAscending rs = true
  := by
  cases rs with
  | nil => rfl
  | cons s rs =>
    simp only [isAscending, Bool.and_eq_true] at h
    exact h.2

/-- All ranges after the first begin after its end. -/
theorem lt_of_mem_of_isAscending
    {r s : Nat × Nat} {rs : List (Nat × Nat)}
    (h : isAscending (r :: rs) = true) (hs : s ∈ rs) :
  r.2 < s.1
  := by
  induction rs generalizing r with
  | nil => simp at hs
  | cons t rs ih =>
    have ht := isAscending_tail h
    simp only [isAscending, Bool.and_eq_true, decide_eq_true_eq] at h
    rcases List.mem_cons.1 hs with rfl | hs
    · omega
    · have hts := ih ht hs
      have hle : t.1 ≤ t.2 := by
        cases rs with
        | nil => simp at hs
        | cons u rs =>
          simp only [isAscending, Bool.and_eq_true, decide_eq_true_eq] at ht
          exact ht.1.1
      omega

theorem covers_iff {n : Nat} {rs : List (Nat × Nat)} (h : isAscending rs = true) :
  covers n rs = true ↔ ∃ r ∈ rs, r.1 ≤ n ∧ n ≤ r.2
  := by
  induction rs with
  | nil => simp [covers]
  | cons r rs ih =>
    rw [covers]
    split
    · rename_i hn
      constructor
      · intro hr
        exact ⟨r, List.mem_cons_self, of_decide_eq_true hr, hn⟩
      · rintro ⟨s, hs, hsn, _⟩
        rcases List.mem_cons.1 hs with rfl | hs
        · exact decide_eq_true hsn
        · have := lt_of_mem_of_isAscending h hs
          omega
    · rename_i hn
      rw [ih (isAscending_tail h)]
      constructor
      · rintro ⟨s, hs, hsn⟩
        exact ⟨s, List.mem_cons_of_mem r hs, hsn⟩
      · rintro ⟨s, hs, hsn⟩
        rcases List.mem_cons.1 hs with rfl | hs
        · exact absurd hsn.2 hn
        · exact ⟨s, hs, hsn⟩

/-- A code point is in the set exactly if a range covers it. -/
theorem contains_iff {s : CodePointSet} {c : Char} :
  s.contains c = true ↔ ∃ r ∈ s.ranges, r.1 ≤ c.toNat ∧ c.toNat ≤ r.2
  := covers_iff s.ascending

end CodePointSet

end Formulary
