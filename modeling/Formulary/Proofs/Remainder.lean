import Formulary.Proofs.Arithmetic.Decision
import Formulary.Proofs.Formula.Decision
import Formulary.Proofs.Parser.Runs
import Formulary.Proofs.Reading

/-!
# What remains of an input

A parser looks farther than it reads: a word or a number ends where the next code point cannot
belong to it, and a connective or an operator is given up again when no operand comes after it.
Neither matters to what is read.  A derivation holds before whatever the rest begins with as well
(`Truncates`), so if the input is cut off anywhere after its end, the same is derived from what is
left, and cut off right there it is all that is read.

The last code point of what is read belongs to a token and is no space.  Hence an input from which
something is read is split at the spaces after it, and what remains is the last part
(`remaining_splits`).
-/

namespace Formulary

open Formulary.Parser

variable {R S : List Char → List Char → Prop} {xs ys rest rest' : List Char}

/-! ### What ends with a token -/

/-- What comes before `rest` in `xs` ends with a code point that is no space. -/
def Closes (xs rest : List Char) : Prop :=
  ∃ p x, ¬isSpace x ∧ xs = p ++ x :: rest

theorem Gap.suffix (h : Gap xs ys) :
  ys <:+ xs
  := by
  obtain ⟨spaces, -, rfl⟩ := h
  apply List.suffix_append

theorem Closes.suffix (h : Closes xs rest) :
  rest <:+ xs
  := by
  obtain ⟨p, x, -, rfl⟩ := h
  use p ++ [x]
  simp

theorem Closes.of_suffix (h : Closes ys rest) (hxs : ys <:+ xs) :
  Closes xs rest
  := by
  obtain ⟨p, x, hx, rfl⟩ := h
  obtain ⟨q, rfl⟩ := hxs
  use q ++ p, x, hx
  rw [List.append_assoc]

theorem closes_gap {x : Char} (hx : ¬isSpace x) (h : Gap xs (x :: rest)) :
  Closes xs rest
  := by
  have hcons : Closes (x :: rest) rest := ⟨[], x, hx, rfl⟩
  apply hcons.of_suffix h.suffix

theorem closes_wordAt {word : String} (h : WordAt xs word rest) :
  Closes xs rest
  := by
  have hchars := isIdentifierChar_of_isWord h.isWord
  obtain hnil | ⟨p, x, hword⟩ := List.eq_nil_or_concat word.toList
  · have hword := h.isWord
    rw [hnil] at hword
    cases hword
  · have hx : ¬isSpace x := by
      intro hspace
      apply not_isIdentifierChar_of_isSpace hspace
      apply hchars
      simp [hword]
    have hcons : Closes (word.toList ++ rest) rest := ⟨p, x, hx, by simp [hword]⟩
    apply hcons.of_suffix h.gap.suffix

/-! ### What holds of an input that is cut off -/

/-- From `xs` to `rest` leads a text that does not end with a space, and `R` holds of it before
whatever `rest` begins with. -/
def Truncates (R : List Char → List Char → Prop) (xs rest : List Char) : Prop :=
  ∃ p x, ¬isSpace x ∧ xs = p ++ x :: rest ∧ ∀ rest', rest' <+: rest → R (p ++ x :: rest') rest'

theorem Truncates.imp (h : Truncates R xs rest) (hR : ∀ {xs ys}, R xs ys → S xs ys) :
  Truncates S xs rest
  := by
  obtain ⟨p, x, hx, rfl, htruncate⟩ := h
  use p, x, hx, rfl
  intro rest' hrest'
  apply hR (htruncate rest' hrest')

/-- What is cut off after the second of two texts is cut off after the first one. -/
theorem Truncates.comp (h : Truncates R xs ys) (h' : Truncates S ys rest) :
  Truncates (Relation.Comp R S) xs rest
  := by
  obtain ⟨p, x, -, rfl, hR⟩ := h
  obtain ⟨q, y, hy, rfl, hS⟩ := h'
  use p ++ x :: q, y, hy, by simp
  intro rest' hrest'
  use q ++ y :: rest'
  rw [List.append_assoc]
  constructor
  · apply hR
    apply (List.prefix_append_right_inj q).mpr
    apply List.cons_prefix_cons.mpr ⟨rfl, hrest'⟩
  · apply hS rest' hrest'

theorem mem_head?_of_isPrefix {x : Char} (h : rest' <+: rest) (hx : x ∈ rest'.head?) :
  x ∈ rest.head?
  := by
  obtain ⟨zs, rfl⟩ := h
  cases rest' with
  | nil => cases hx
  | cons y ys => exact hx

/-- A word ends where the rest is cut off, if it ends before the rest. -/
theorem EndsWord.of_isPrefix (h : EndsWord rest) (hrest : rest' <+: rest) :
  EndsWord rest'
  := by
  intro x hx
  apply h x (mem_head?_of_isPrefix hrest hx)

/-- What stands before any rest stands before a part of the rest. -/
theorem Formula.Detaches.truncates (h : Detaches R xs rest) (hcloses : Closes xs rest) :
  Truncates R xs rest
  := by
  obtain ⟨q, -, hq, hdetach⟩ := h
  obtain ⟨p, x, hx, rfl⟩ := hcloses
  obtain rfl : p ++ [x] = q := by
    apply List.append_cancel_right
    rw [← hq, List.append_assoc]
    rfl
  use p, x, hx, rfl
  intro rest' hrest'
  have h := hdetach rest' fun hends => hends.of_isPrefix hrest'
  rw [List.append_assoc] at h
  apply h

theorem truncates_gap {x : Char} (hx : ¬isSpace x) (h : Gap xs (x :: rest)) :
  Truncates (fun xs rest => Gap xs (x :: rest)) xs rest
  := (Formula.detaches_gap h).truncates (closes_gap hx h)

/-! ### Formulas -/

namespace Formula

variable {r : Rule} {t : Term}

theorem closes_valueAt {v : Value} (h : ValueAt xs v rest) :
  Closes xs rest
  := by
  cases h with
  | true word => apply closes_wordAt word
  | false word => apply closes_wordAt word
  | @text ys _ s gap contents =>
      have hopening := closes_gap (by decide) gap
      have hcontents : Closes ys rest :=
        ⟨Value.escapeQuotes s.toList, '"', by decide, (contents_iff.mp contents).1⟩
      apply hcontents.of_suffix hopening.suffix

theorem Negations.suffix {k : Nat} (h : Negations k xs ys) :
  ys <:+ xs
  := by
  induction h with
  | none => apply List.suffix_refl
  | more word _ ih => apply ih.trans (closes_wordAt word).suffix

/-- What is derived ends with a token. -/
theorem Derives.closes (h : Derives r xs t rest) :
  Closes xs rest
  := by
  induction h with
  | value h => apply closes_valueAt h
  | identifier word _ => apply closes_wordAt word
  | parenthesised opening _ closing ih =>
      have hopening := closes_gap (by decide) opening
      have hclosing := closes_gap (by decide) closing
      apply hclosing.of_suffix (ih.suffix.trans hopening.suffix)
  | side _ ih => apply ih
  | equation _ sign _ ihl ihr =>
      have hsign := closes_gap (by decide) sign
      apply ihr.of_suffix (hsign.suffix.trans ihl.suffix)
  | negation negations _ ih => apply ih.of_suffix negations.suffix
  | last _ ih => apply ih
  | link _ word _ ih ihchain =>
      apply ihchain.of_suffix ((closes_wordAt word).suffix.trans ih.suffix)

/-- What is derived is still derived if the rest is cut off anywhere. -/
theorem Derives.truncates (h : Derives r xs t rest) :
  Truncates (Derives r · t ·) xs rest
  := h.detaches.truncates h.closes

/-- A formula that is read is derived from the text before what remains. -/
theorem exists_derives_of_parseFormula {text : String} {reading : Reading Term}
    (h : (parseFormula text).1 = .ok reading) :
  ∃ rest, Derives (.chain .or) text.toList reading.value rest
    ∧ reading.remaining = String.ofList (rest.dropWhile isSpace)
  := by
  rw [parseFormula_eq] at h
  obtain ⟨rest, hread, hremaining⟩ := Scan.finish_eq_ok.mp h
  use rest, sound_formulaScan hread

/-- What is derived from all of a text is read. -/
theorem Derives.parseFormula {text : String} (h : Derives (.chain .or) text.toList t []) :
  (parseFormula text).1 = .ok ⟨t, ""⟩
  := by
  have hread : formulaScan.read text.toList = some (t, []) := h.reads.eq_of_not not_continues_nil
  rw [parseFormula_eq]
  apply Scan.finish_eq_ok.mpr
  use [], hread
  rfl

end Formula

/-! ### Expressions -/

namespace Arithmetic

variable {r : Rule} {t : Tree} {digits : List Char}

/-- A number that is as long as it can be is so if the rest is cut off. -/
theorem truncates_numberAt (h : NumberAt xs digits rest) :
  Truncates (NumberAt · digits ·) xs rest
  := by
  obtain ⟨⟨spaces, hspaces, rfl⟩, hne, hdigits, hends, hrange⟩ := h
  obtain hnil | ⟨ds, d, rfl⟩ := List.eq_nil_or_concat digits
  · exact absurd hnil hne
  · have hd : isDigit d := hdigits d (by simp)
    use spaces ++ ds, d, not_isSpace_of_isDigit hd, by simp
    intro rest' hrest'
    constructor
    · exact ⟨spaces, hspaces, by simp⟩
    · apply hne
    · apply hdigits
    · intro x hx
      apply hends x (mem_head?_of_isPrefix hrest' hx)
    · apply hrange

/-- What is derived is still derived if the rest is cut off anywhere. -/
theorem Derives.truncates (h : Derives r xs t rest) :
  Truncates (Derives r · t ·) xs rest
  := by
  induction h with
  | number number => apply (truncates_numberAt number).imp .number
  | parenthesised opening _ closing ih =>
      have hopening := truncates_gap (by decide) opening
      have hclosing := truncates_gap (by decide) closing
      apply ((hopening.comp ih).comp hclosing).imp
      rintro xs rest ⟨zs, ⟨ys, hopening, hinner⟩, hclosing⟩
      apply Derives.parenthesised hopening hinner hclosing
  | first _ ih => apply ih.imp .first
  | @more _ _ _ _ _ op _ _ _ level sign _ ihl ihr =>
      apply ((ihl.comp (truncates_gap op.not_isSpace_sign sign)).comp ihr).imp
      rintro xs rest ⟨zs, ⟨ys, hl, hsign⟩, hr⟩
      apply Derives.more hl level hsign hr

/-- The value of an evaluation is that of the longest expression. -/
theorem evaluate_eq_ok {text : String} {reading : Reading Int} :
  (evaluate text).1 = .ok reading
    ↔ ∃ t rest, Longest text.toList t rest ∧ t.outcome = .ok reading.value
        ∧ reading.remaining = String.ofList (rest.dropWhile isSpace)
  := by
  obtain ⟨n, remaining⟩ := reading
  rw [evaluate_eq]
  constructor
  · intro h
    cases hread : (expressionScan .outcomes).read text.toList with
    | none =>
        rw [hread] at h
        cases h
    | some found =>
        obtain ⟨outcome, rest⟩ := found
        obtain ⟨t, hlongest, houtcome⟩ := expressionScan_eq_some.mp hread
        rw [Meaning.outcomes_of] at houtcome
        rw [hread] at h
        cases outcome with
        | error fault => cases h
        | ok n' =>
            obtain ⟨rfl, rfl⟩ := Reading.mk.inj (Except.ok.inj h)
            use t, rest, hlongest, houtcome
  · rintro ⟨t, rest, hlongest, houtcome, rfl⟩
    rw [hlongest.read_outcomes, houtcome]

/-- What is derived from all of a text is evaluated. -/
theorem Derives.evaluate {text : String} {n : Int}
    (h : Derives (.chain .sums) text.toList t []) (houtcome : t.outcome = .ok n) :
  (evaluate text).1 = .ok ⟨n, ""⟩
  := by
  have hlongest : Longest text.toList t [] := ⟨h, fun _ _ _ => Nat.zero_le _⟩
  apply evaluate_eq_ok.mpr
  use t, [], hlongest, houtcome
  rfl

end Arithmetic

/-! ### Splits -/

/-- A text is split into what is read, which is not empty and does not end with a space, the spaces
after it, and what remains, which does not begin with a space. -/
structure Splits (text read gap remaining : String) : Prop where
  text_eq : text = read ++ gap ++ remaining
  nonempty : read ≠ ""
  ends : ∀ x ∈ read.toList.getLast?, ¬isSpace x
  spaces : ∀ x ∈ gap.toList, isSpace x
  begins : ∀ x ∈ remaining.toList.head?, ¬isSpace x

/-- A text is split where it can be cut off. -/
theorem Truncates.exists_splits {text : String} (h : Truncates R text.toList rest) :
  ∃ read gap, Splits text read gap (String.ofList (rest.dropWhile isSpace)) ∧ R read.toList []
  := by
  obtain ⟨p, x, hx, htext, htruncate⟩ := h
  obtain ⟨spaces, hspaces, hrest⟩ := gap_dropWhile rest
  use String.ofList (p ++ [x]), String.ofList spaces
  constructor
  · constructor
    · apply String.toList_injective
      simp [htext, ← hrest]
    · intro hnil
      simpa using congrArg String.toList hnil
    · simpa using hx
    · simpa using hspaces
    · intro y hy
      rw [String.toList_ofList] at hy
      have hnot := List.head?_dropWhile_not isSpace rest
      rw [Option.mem_def.mp hy] at hnot
      simpa using hnot
  · rw [String.toList_ofList]
    apply htruncate [] List.nil_prefix

/-- If a formula or an expression is read from a text, the text is split into what is read, spaces
and what remains, and from the first part alone the same is read with nothing left over. -/
theorem remaining_splits :
  (∀ (text : String) (reading : Reading Term), (parseFormula text).1 = .ok reading →
      ∃ read gap, Splits text read gap reading.remaining
        ∧ (parseFormula read).1 = .ok ⟨reading.value, ""⟩)
    ∧ ∀ (text : String) (reading : Reading Int), (evaluate text).1 = .ok reading →
        ∃ read gap, Splits text read gap reading.remaining
          ∧ (evaluate read).1 = .ok ⟨reading.value, ""⟩
  := by
  constructor
  · intro text reading h
    obtain ⟨rest, hderives, hremaining⟩ := Formula.exists_derives_of_parseFormula h
    rw [hremaining]
    obtain ⟨read, gap, hsplits, hread⟩ := hderives.truncates.exists_splits
    use read, gap, hsplits, hread.parseFormula
  · intro text reading h
    obtain ⟨t, rest, hlongest, houtcome, hremaining⟩ := Arithmetic.evaluate_eq_ok.mp h
    rw [hremaining]
    obtain ⟨read, gap, hsplits, hread⟩ := hlongest.derives.truncates.exists_splits
    use read, gap, hsplits, hread.evaluate houtcome

/-- What remains may begin with a connective without an operand, or with an operator before a number
out of range. -/
theorem remaining_splits_dangling :
  let formula := "x1=\"a\" \t AND NOT (y2"
  let sum := "2 * 3 + 9223372036854775808"
  let t : Term := .equation (.identifier "x1") (.value (.str "a"))
  (parseFormula formula).1 = .ok ⟨t, "AND NOT (y2"⟩
    ∧ (∃ read gap, Splits formula read gap "AND NOT (y2" ∧ (parseFormula read).1 = .ok ⟨t, ""⟩)
    ∧ (evaluate sum).1 = .ok ⟨6, "+ 9223372036854775808"⟩
    ∧ ∃ read gap, Splits sum read gap "+ 9223372036854775808" ∧ (evaluate read).1 = .ok ⟨6, ""⟩
  := by
  intro formula sum t
  have hformula : (parseFormula formula).1 = .ok ⟨t, "AND NOT (y2"⟩ := by decide +kernel
  have hsum : (evaluate sum).1 = .ok ⟨6, "+ 9223372036854775808"⟩ := by decide +kernel
  obtain ⟨hsplits, hsplits'⟩ := remaining_splits
  use hformula, hsplits formula _ hformula, hsum
  apply hsplits' sum _ hsum

end Formulary
