import Formulary.Text.Utf8
import Mathlib.Data.List.DropRight
import Mathlib.Tactic.Common

/-!
# Decoding line by line

No byte of a code point beyond its first one is a line feed, so a piece of bytes never goes beyond
the line feed that follows it, whether it is a code point or not.  Hence bytes that end with a line
feed can be decoded apart from those after them (`decodeLossy_append`).
-/

namespace Formulary.Utf8

variable {bytes later rest : List UInt8} {piece : Option Char}

/-! ### Decoding piece by piece -/

theorem decodeOne_eq_none_iff :
  decodeOne bytes = none ↔ bytes = []
  := by
  cases bytes with
  | nil => simp [decodeOne]
  | cons b bytes =>
      simp only [decodeOne, reduceCtorEq, iff_false]
      split_ifs
      · simp
      · cases lead? b <;> simp

@[simp]
theorem decodeLossy_nil :
  decodeLossy [] = []
  := by
  rw [decodeLossy]
  rfl

theorem decodeLossy_of_decodeOne (h : decodeOne bytes = some (piece, rest)) :
  decodeLossy bytes = piece.getD replacement :: decodeLossy rest
  := by
  rw [decodeLossy]
  split
  · simp_all
  · simp_all

theorem decodeLossy_eq_nil_iff :
  decodeLossy bytes = [] ↔ bytes = []
  := by
  constructor
  · intro h
    cases hone : decodeOne bytes with
    | none => apply decodeOne_eq_none_iff.mp hone
    | some found =>
        rw [decodeLossy_of_decodeOne hone] at h
        cases h
  · rintro rfl
    apply decodeLossy_nil

theorem decodeLossy_length_pos (h : bytes ≠ []) :
  0 < (decodeLossy bytes).length
  := List.length_pos_iff.mpr (mt decodeLossy_eq_nil_iff.mp h)

/-! ### Lines -/

/-- The bytes are whole lines: none, or the last one is a line feed. -/
def EndsLine (bytes : List UInt8) : Prop := ∀ b ∈ bytes.getLast?, b = lineFeed

instance decidableEndsLine : DecidablePred EndsLine :=
  fun bytes => decidable_of_iff (bytes.getLast?.all (· == lineFeed) = true) (by
    simp [EndsLine, Option.all_eq_true])

theorem endsLine_nil :
  EndsLine []
  := by simp [EndsLine]

theorem endsLine_cons_cons {b b' : UInt8} :
  EndsLine (b :: b' :: bytes) ↔ EndsLine (b' :: bytes)
  := by rw [EndsLine, List.getLast?_cons_cons, EndsLine]

theorem endsLine_singleton {b : UInt8} :
  EndsLine [b] ↔ b = lineFeed
  := by simp [EndsLine]

theorem EndsLine.tail {b : UInt8} (h : EndsLine (b :: bytes)) :
  EndsLine bytes
  := by
  cases bytes with
  | nil => apply endsLine_nil
  | cons b' bytes => apply endsLine_cons_cons.mp h

/-- After a byte that is no line feed there are more bytes. -/
theorem EndsLine.exists_of_ne {b : UInt8} (h : EndsLine (b :: bytes)) (hb : b ≠ lineFeed) :
  ∃ b' bytes', bytes = b' :: bytes'
  := by
  cases bytes with
  | nil => exact absurd (endsLine_singleton.mp h) hb
  | cons b' bytes' => exact ⟨b', bytes', rfl⟩

theorem ne_lineFeed_of_le {b : UInt8} (h : 0x80 ≤ b) :
  b ≠ lineFeed
  := by
  rintro rfl
  exact absurd h (by decide)

/-- A form that was begun is completed, or given up, within its line. -/
theorem complete_append {b least greatest : UInt8} (hleast : 0x80 ≤ least) (share following : Nat)
    (h : EndsLine (b :: bytes)) (later : List UInt8) :
  EndsLine (complete share following least greatest (b :: bytes)).2
    ∧ complete share following least greatest (b :: bytes ++ later)
      = ((complete share following least greatest (b :: bytes)).1,
          (complete share following least greatest (b :: bytes)).2 ++ later)
  := by
  induction following generalizing share least greatest b bytes with
  | zero => exact ⟨h, rfl⟩
  | succ following ih =>
      simp only [List.cons_append, complete]
      split_ifs with hb
      · obtain ⟨b', bytes', rfl⟩ := h.exists_of_ne (ne_lineFeed_of_le (UInt8.le_trans hleast hb.1))
        apply ih (by decide) _ (endsLine_cons_cons.mp h)
      · exact ⟨h, rfl⟩

/-- The second byte of a form is never that of ASCII. -/
theorem le_least_of_lead? {b : UInt8} {lead : Lead} (h : lead? b = some lead) :
  0x80 ≤ lead.least
  := by
  unfold lead? at h
  split_ifs at h
  all_goals
    rw [← Option.some.inj h]
    simp only
    decide

/-- The first piece of whole lines is found in them, whatever follows, and leaves whole lines. -/
theorem decodeOne_append (h : EndsLine bytes) (later : List UInt8)
    (hone : decodeOne bytes = some (piece, rest)) :
  EndsLine rest ∧ decodeOne (bytes ++ later) = some (piece, rest ++ later)
  := by
  cases bytes with
  | nil => cases hone
  | cons b bytes =>
      rw [List.cons_append]
      rw [decodeOne] at hone ⊢
      split_ifs at hone ⊢ with hascii
      · cases hone
        exact ⟨h.tail, rfl⟩
      · cases hlead : lead? b with
        | none =>
            rw [hlead] at hone
            cases hone
            exact ⟨h.tail, rfl⟩
        | some lead =>
            rw [hlead] at hone
            obtain ⟨b', bytes, rfl⟩ := h.exists_of_ne (ne_lineFeed_of_le (UInt8.not_lt.mp hascii))
            obtain ⟨hends, happend⟩ := complete_append (le_least_of_lead? hlead) lead.share
              lead.following (endsLine_cons_cons.mp h) later
            have hcomplete := Option.some.inj hone
            rw [hcomplete] at hends happend
            exact ⟨hends, congrArg some happend⟩

/-- Whole lines are decoded apart from what follows them. -/
theorem decodeLossy_append (h : EndsLine bytes) (later : List UInt8) :
  decodeLossy (bytes ++ later) = decodeLossy bytes ++ decodeLossy later
  := by
  induction hn : bytes.length using Nat.strong_induction_on generalizing bytes with
  | h n ih =>
      cases hone : decodeOne bytes with
      | none =>
          obtain rfl := decodeOne_eq_none_iff.mp hone
          rw [decodeLossy_nil, List.nil_append, List.nil_append]
      | some found =>
          obtain ⟨piece, rest⟩ := found
          obtain ⟨hrest, happend⟩ := decodeOne_append h later hone
          rw [decodeLossy_of_decodeOne hone, decodeLossy_of_decodeOne happend,
            ih rest.length (hn ▸ decodeOne_length_lt hone) hrest rfl, List.cons_append]

/-! ### Unfinished lines -/

/-- The bytes without the last line if that is unfinished. -/
def wholeLines (bytes : List UInt8) : List UInt8 := bytes.rdropWhile (· != lineFeed)

theorem endsLine_iff_getLast :
  EndsLine bytes ↔ ∀ h : bytes ≠ [], bytes.getLast h = lineFeed
  := by
  constructor
  · intro h hne
    apply h
    rw [List.getLast?_eq_some_getLast hne]
    rfl
  · rintro h b hb
    obtain ⟨hne, rfl⟩ := List.mem_getLast?_eq_getLast hb
    apply h hne

theorem wholeLines_append (h : EndsLine bytes) (later : List UInt8) :
  wholeLines (bytes ++ later) = bytes ++ wholeLines later
  := by
  unfold wholeLines
  induction later using List.reverseRecOn with
  | nil =>
      rw [List.append_nil, List.rdropWhile_nil, List.append_nil, List.rdropWhile_eq_self_iff]
      intro hne
      simpa using endsLine_iff_getLast.mp h hne
  | append_singleton later b ih =>
      rw [← List.append_assoc, List.rdropWhile_concat, List.rdropWhile_concat, ih]
      split_ifs
      · rfl
      · rw [List.append_assoc]

/-- The whole lines among the bytes are their longest prefix of whole lines. -/
theorem wholeLines_longest (bytes : List UInt8) :
  wholeLines bytes <+: bytes ∧ EndsLine (wholeLines bytes)
    ∧ ∀ p, p <+: bytes → EndsLine p → p <+: wholeLines bytes
  := by
  refine ⟨List.rdropWhile_prefix _ _, ?_, ?_⟩
  · apply endsLine_iff_getLast.mpr
    intro hne
    have hlast := List.rdropWhile_last_not (· != lineFeed) bytes hne
    rw [bne_iff_ne, not_not] at hlast
    apply hlast
  · rintro p ⟨rest, rfl⟩ hp
    rw [wholeLines_append hp]
    apply List.prefix_append

end Formulary.Utf8
