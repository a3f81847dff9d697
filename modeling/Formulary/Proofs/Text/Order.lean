import Mathlib.Algebra.Group.Nat.Defs
import Mathlib.Data.List.Basic
import Mathlib.Tactic.Common

/-!
# The order of texts

Texts are ordered by their code points, the first one in which they differ being decisive.  To order
them by the bytes of their UTF-8 form is the same (`lt_iff_encode_lt`): of two code points the
smaller one has the smaller first byte, or the same first byte and smaller bytes after it.
-/

namespace Formulary.Utf8

/-- The bytes of a text. -/
def encode (s : String) : List UInt8 := s.toUTF8.data.toList

theorem encode_eq (s : String) :
  encode s = s.toList.flatMap String.utf8EncodeChar
  := by
  rw [encode, String.toUTF8_eq_toByteArray, ← String.utf8Encode_toList, List.utf8Encode]
  simp

/-! ### The bytes of a code point -/

/-- The last `k` digits of `n` to the base 64, each in a byte that begins no code point. -/
def trail : Nat → Nat → List UInt8
  | 0, _ => []
  | k + 1, n => trail k (n / 64) ++ [UInt8.ofNat (n % 64 + 0x80)]

/-- How many bytes come after the first one of the code point `n`. -/
def following (n : Nat) : Nat :=
  if n < 0x80 then 0 else if n < 0x800 then 1 else if n < 0x10000 then 2 else 3

/-- The least first byte with `k` others after it. -/
def leastLeading : Nat → Nat
  | 0 => 0
  | 1 => 0xC0
  | 2 => 0xE0
  | _ => 0xF0

/-- The first byte of the code point `n`, which holds the digits before the last ones. -/
def leading (n : Nat) : Nat := leastLeading (following n) + n / 64 ^ following n

theorem toNat_lt (c : Char) :
  c.toNat < 0x110000
  := by
  rcases c.valid with h | h
  · apply Nat.lt_trans h (by decide)
  · apply h.2

theorem utf8EncodeChar_eq (c : Char) :
  String.utf8EncodeChar c = UInt8.ofNat (leading c.toNat) :: trail (following c.toNat) c.toNat
  := by
  have hlt := toNat_lt c
  have hval : c.val.toNat = c.toNat := rfl
  simp only [String.utf8EncodeChar, hval, leading, following, Nat.lt_succ_iff]
  split_ifs
  · simp [leastLeading, trail]
  · simp only [leastLeading, trail, List.nil_append]
    congr 2
    omega
  · simp only [leastLeading, trail, List.nil_append, List.cons_append]
    congr 2
    omega
  · simp only [leastLeading, trail, List.nil_append, List.cons_append, Nat.div_div_eq_div_mul]
    congr 2
    omega

theorem leading_lt {n : Nat} (h : n < 0x110000) :
  leading n < 0x100
  := by
  simp only [leading, following]
  split_ifs <;> simp only [leastLeading] <;> omega

/-- More bytes after the first one make the first one greater. -/
theorem leading_lt_or {n m : Nat} (h : n < m) :
  leading n < leading m ∨ following n = following m ∧ n / 64 ^ following n = m / 64 ^ following m
  := by
  simp only [leading, following]
  split_ifs <;> simp only [leastLeading, true_and] <;> omega

/-- Of two numbers that differ in their last digits only, the smaller one has the smaller bytes. -/
theorem trail_append_lt {k n m : Nat} (h : n < m) (hk : n / 64 ^ k = m / 64 ^ k)
    (rest rest' : List UInt8) :
  trail k n ++ rest < trail k m ++ rest'
  := by
  induction k generalizing n m rest rest' with
  | zero =>
      rw [Nat.pow_zero, Nat.div_one, Nat.div_one] at hk
      exact absurd hk (Nat.ne_of_lt h)
  | succ k ih =>
      rw [Nat.pow_succ', ← Nat.div_div_eq_div_mul, ← Nat.div_div_eq_div_mul] at hk
      simp only [trail, List.append_assoc]
      obtain hlt | heq : n / 64 < m / 64 ∨ n / 64 = m / 64 := by omega
      · apply ih hlt hk
      · rw [heq]
        apply List.append_left_lt
        apply List.cons_lt_cons_iff.mpr
        left
        rw [UInt8.lt_iff_toNat_lt, UInt8.toNat_ofNat', UInt8.toNat_ofNat']
        omega

/-- The bytes of two code points differ somewhere, and there the smaller one has the smaller
byte. -/
theorem utf8EncodeChar_append_lt {c d : Char} (h : c < d) (rest rest' : List UInt8) :
  String.utf8EncodeChar c ++ rest < String.utf8EncodeChar d ++ rest'
  := by
  have hlt : c.toNat < d.toNat := h
  have hd := leading_lt (toNat_lt d)
  rw [utf8EncodeChar_eq, utf8EncodeChar_eq, List.cons_append, List.cons_append]
  apply List.cons_lt_cons_iff.mpr
  obtain hleading | ⟨hfollowing, hshare⟩ := leading_lt_or hlt
  · left
    rw [UInt8.lt_iff_toNat_lt, UInt8.toNat_ofNat', UInt8.toNat_ofNat']
    omega
  · right
    rw [hfollowing] at hshare ⊢
    constructor
    · rw [leading, leading, hfollowing, hshare]
    · apply trail_append_lt hlt hshare

/-! ### The bytes of a text -/

theorem encode_lt_of_lt {s t : String} (h : s < t) :
  encode s < encode t
  := by
  rw [encode_eq, encode_eq]
  have h : List.Lex (· < ·) s.toList t.toList := h
  generalize s.toList = xs, t.toList = ys at h ⊢
  induction h with
  | nil =>
      rw [List.flatMap_cons, utf8EncodeChar_eq]
      apply List.nil_lt_cons
  | rel h =>
      rw [List.flatMap_cons, List.flatMap_cons]
      apply utf8EncodeChar_append_lt h
  | cons _ ih =>
      rw [List.flatMap_cons, List.flatMap_cons]
      apply List.append_left_lt ih

/-- The order of code points is the order of bytes. -/
theorem lt_iff_encode_lt {s t : String} :
  s < t ↔ encode s < encode t
  := by
  constructor
  · apply encode_lt_of_lt
  · intro h
    by_contra hst
    by_cases hts : t < s
    · apply List.lt_asymm h (encode_lt_of_lt hts)
    · obtain rfl : s = t := String.le_antisymm hts hst
      apply List.lt_irrefl _ h

end Formulary.Utf8
