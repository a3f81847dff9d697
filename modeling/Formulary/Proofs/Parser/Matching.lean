import Formulary.Proofs.Parser.Consumption
import Formulary.Proofs.Parser.Words
import Formulary.Proofs.Tape.Supply

/-!
# What the parsers of code points match

Each parser of code points is set against the list of the code points that remain at a cursor.
`Yields p tape c found` says that the parser comes to what was found in the list: to a value, with
the cursor advanced over exactly the code points that were found, or to a failure at the cursor.

What they match is a prefix, or a code point with the run that follows it, and this settles keywords
(`leaves_match_remaining`).  The end of the list is no code point.  Past the end a cursor shows the
end mark, which is a code point like others within a text, but no parser takes it for one: only the
empty text is matched there.
-/

namespace Formulary

/-- The code point with which a text begins, if it satisfies `first`, and all code points that
follow it and satisfy `later`. -/
def leading? (first later : Char → Bool) : List Char → Option (List Char)
  | [] => none
  | x :: xs => if first x then some (x :: xs.takeWhile later) else none

theorem leading?_eq_some {first later : Char → Bool} {xs : List Char} {s : String} :
  leading? first later xs = some s.toList
    ↔ ∃ rest, (Scan.several first later).read xs = some (s, rest)
  := by
  cases xs with
  | nil => simp [leading?, Scan.several]
  | cons x xs =>
      by_cases hx : first x
      · simp only [leading?, Scan.several, if_pos hx, Option.some.injEq, Prod.mk.injEq]
        constructor
        · intro hs
          exact ⟨xs.dropWhile later, by rw [hs, String.ofList_toList], rfl⟩
        · rintro ⟨rest, rfl, -⟩
          exact String.toList_ofList.symm
      · simp [leading?, Scan.several, hx]

namespace Parser

open Tape

variable {α : Type} {tape : Tape} {text xs consumed rest : List Char} {c : Cursor} {p : Parser α}
  {f : Scan α} {a : α}

/-! ### Outcomes -/

/-- At the cursor `c` the parser comes to what was found: it fails there, or it succeeds with the
value and has advanced the cursor over the code points. -/
def Yields (p : Parser α) (tape : Tape) (c : Cursor) : Option (α × List Char) → Prop
  | none => (p.run c tape).1 = .failure c
  | some (a, consumed) =>
    ∃ c' tape', p.run c tape = (.success a c', tape') ∧ Consumes tape c consumed tape' c'

theorem Yields.isSuccess_iff {found : Option (α × List Char)} (h : Yields p tape c found) :
  (p.run c tape).1.isSuccess ↔ found.isSome
  := by
  cases found with
  | none =>
      have hrun : (p.run c tape).1 = .failure c := h
      simp [hrun, Result.isSuccess]
  | some m =>
      obtain ⟨c', tape', hrun, -⟩ := h
      simp [hrun, Result.isSuccess]

theorem Denotes.yields (hp : Denotes p f) (h : tape.Spells text) (hc : tape.Stands text c xs)
    (hxs : xs = consumed ++ rest) (hf : f.read xs = some (a, rest)) :
  Yields p tape c (some (a, consumed))
  := by
  have hread := hp h hc
  rw [hf] at hread
  subst hxs
  generalize hrun : p.run c tape = outcome at hread
  cases hread with
  | @success _ _ c' tape' moves => exact ⟨c', tape', hrun, moves.consumes h hc⟩

theorem Denotes.yields_none (hp : Denotes p f) (h : tape.Spells text) (hc : tape.Stands text c xs)
    (hf : f.read xs = none) :
  Yields p tape c none
  := by
  have hread := hp h hc
  rw [hf] at hread
  simp only [Yields]
  generalize p.run c tape = outcome at hread ⊢
  cases hread with
  | failure leads => rfl

/-! ### Leaves -/

section

variable (h : tape.Spells text) (hc : tape.Stands text c xs)

include h hc

theorem yields_codePoint (x : Char) :
  Yields (codePoint x) tape c (if xs.head? = some x then some (x, [x]) else none)
  := by
  split_ifs with hx
  · obtain ⟨rest, rfl⟩ := List.head?_eq_some_iff.mp hx
    apply (denotes_codePoint x).yields h hc rfl
    exact Scan.point_eq_some.mpr ⟨rfl, rfl⟩
  · apply (denotes_codePoint x).yields_none h hc
    rw [Option.eq_none_iff_forall_ne_some]
    rintro ⟨y, rest⟩ hread
    obtain ⟨-, rfl⟩ := Scan.point_eq_some.mp hread
    apply hx rfl

theorem yields_codePointNot (excluded : List Char) :
  Yields (codePointNot excluded) tape c
    ((xs.head?.filter (· ∉ excluded)).map fun x => (x, [x]))
  := by
  cases xs with
  | nil => apply (denotes_codePointNot excluded).yields_none h hc rfl
  | cons x rest =>
      rw [List.head?_cons, Option.filter_some]
      split_ifs with hx
      · apply (denotes_codePointNot excluded).yields h hc rfl
        exact Scan.one_eq_some.mpr ⟨rfl, hx⟩
      · apply (denotes_codePointNot excluded).yields_none h hc
        exact if_neg hx

theorem yields_codePoints (seq : List Char) :
  Yields (codePoints seq) tape c (if seq <+: xs then some (seq, seq) else none)
  := by
  split_ifs with hseq
  · obtain ⟨rest, rfl⟩ := hseq
    apply (denotes_codePoints seq).yields h hc rfl
    exact Scan.literal_eq_some.mpr ⟨rfl, rfl⟩
  · apply (denotes_codePoints seq).yields_none h hc
    exact if_neg hseq

theorem yields_string (s : String) :
  Yields (string s) tape c (if s.toList <+: xs then some (s, s.toList) else none)
  := by
  split_ifs with hs
  · obtain ⟨rest, rfl⟩ := hs
    apply (denotes_string s).yields h hc rfl
    apply Scan.map_eq_some.mpr
    use s.toList, Scan.literal_eq_some.mpr ⟨rfl, rfl⟩
    apply String.ofList_toList
  · apply (denotes_string s).yields_none h hc
    rw [Option.eq_none_iff_forall_ne_some]
    rintro ⟨_, rest⟩ hread
    obtain ⟨_, hread, -⟩ := Scan.map_eq_some.mp hread
    obtain ⟨-, rfl⟩ := Scan.literal_eq_some.mp hread
    apply hs (List.prefix_append _ _)

theorem yields_several (first later : Char → Bool) :
  Yields (several first later) tape c
    ((leading? first later xs).map fun run => (String.ofList run, run))
  := by
  cases xs with
  | nil => apply (denotes_several first later).yields_none h hc rfl
  | cons x rest =>
      rw [leading?]
      split_ifs with hx
      · have hrest : x :: rest = (x :: rest.takeWhile later) ++ rest.dropWhile later := by
          rw [List.cons_append, List.takeWhile_append_dropWhile]
        apply (denotes_several first later).yields h hc hrest
        exact if_pos hx
      · apply (denotes_several first later).yields_none h hc
        exact if_neg hx

/-- A keyword is matched where, after all spaces, it is the word that follows. -/
theorem yields_keyword (word : String) :
  Yields (keyword word) tape c
    (if leading? isIdentifierStart isIdentifierChar (xs.dropWhile isSpace) = some word.toList then
      some (word, xs.takeWhile isSpace ++ word.toList)
    else none)
  := by
  split_ifs with hword
  · obtain ⟨rest, hread⟩ := leading?_eq_some.mp hword
    obtain ⟨hxs, -, -⟩ := Scan.identifier_eq_some.mp hread
    have hsplit : xs = (xs.takeWhile isSpace ++ word.toList) ++ rest := by
      rw [List.append_assoc, ← hxs, List.takeWhile_append_dropWhile]
    apply (denotes_keyword word).yields h hc hsplit
    exact Scan.keyword_eq_some.mpr ⟨rfl, Scan.spaced_identifier_eq_some.mp hread⟩
  · apply (denotes_keyword word).yields_none h hc
    rw [Option.eq_none_iff_forall_ne_some]
    rintro ⟨found, rest⟩ hread
    obtain ⟨-, hword'⟩ := Scan.keyword_eq_some.mp hread
    apply hword
    apply leading?_eq_some.mpr
    use rest
    exact Scan.spaced_identifier_eq_some.mpr hword'

end

/-! ### The list that remains -/

/-- Past the end a cursor shows the end mark, and nothing remains. -/
theorem eq_nil_of_isExhausted (hc : tape.Stands text c xs) (hend : c.isExhausted) :
  xs = [] ∧ tape.current c = endMark
  := by
  have hposition : c.position = none := Option.isNone_iff_eq_none.mp hend
  unfold Stands at hc
  rw [hposition] at hc
  refine ⟨hc, ?_⟩
  rw [current, peek?, hposition]
  rfl

/-- What the parsers of code points match is settled by the list that remains.  A text is matched
where it is a prefix of the list; a run where the list begins with it, and then as far as it goes;
a code point where it is at the head; and a keyword where it is the first word after all spaces.
Past the end nothing is matched but the empty text, not even the end mark that the cursor shows. -/
theorem leaves_match_remaining (h : tape.Spells text) (hc : tape.Stands text c xs) :
  (∀ seq, Yields (codePoints seq) tape c (if seq <+: xs then some (seq, seq) else none))
    ∧ (∀ s, Yields (string s) tape c (if s.toList <+: xs then some (s, s.toList) else none))
    ∧ (∀ first later, Yields (several first later) tape c
        ((leading? first later xs).map fun run => (String.ofList run, run)))
    ∧ (∀ x, Yields (codePoint x) tape c (if xs.head? = some x then some (x, [x]) else none))
    ∧ (∀ excluded, Yields (codePointNot excluded) tape c
        ((xs.head?.filter (· ∉ excluded)).map fun x => (x, [x])))
    ∧ (∀ word, Yields (keyword word) tape c
        (if leading? isIdentifierStart isIdentifierChar (xs.dropWhile isSpace) = some word.toList
          then some (word, xs.takeWhile isSpace ++ word.toList) else none))
    ∧ (c.isExhausted → tape.current c = endMark
        ∧ (∀ seq, ((codePoints seq).run c tape).1.isSuccess ↔ seq = [])
        ∧ (∀ s, ((string s).run c tape).1.isSuccess ↔ s = "")
        ∧ (∀ first later, ¬((several first later).run c tape).1.isSuccess)
        ∧ (∀ x, ¬((codePoint x).run c tape).1.isSuccess)
        ∧ (∀ excluded, ¬((codePointNot excluded).run c tape).1.isSuccess)
        ∧ ∀ word, ¬((keyword word).run c tape).1.isSuccess)
  := by
  refine ⟨yields_codePoints h hc, yields_string h hc, yields_several h hc, yields_codePoint h hc,
    yields_codePointNot h hc, yields_keyword h hc, ?_⟩
  intro hend
  obtain ⟨rfl, hcurrent⟩ := eq_nil_of_isExhausted hc hend
  refine ⟨hcurrent, ?_, ?_, ?_, ?_, ?_, ?_⟩
  · intro seq
    simp [(yields_codePoints h hc seq).isSuccess_iff]
  · intro s
    simp [(yields_string h hc s).isSuccess_iff]
  · intro first later
    simp [(yields_several h hc first later).isSuccess_iff, leading?]
  · intro x
    simp [(yields_codePoint h hc x).isSuccess_iff]
  · intro excluded
    simp [(yields_codePointNot h hc excluded).isSuccess_iff]
  · intro word
    simp [(yields_keyword h hc word).isSuccess_iff, leading?]

/-- A stream that begins with the end mark and goes on with a keyword: within the text the end mark
is matched like any code point, and after the text it is shown but not matched. -/
theorem leaves_match_remaining_endMark :
  let start := ofSupply (.codePoints "\x00 OR".toList)
  let next := start.2.advance start.1
  let last := start.2.advances 4 start.1
  Yields (codePoints [endMark]) start.2 start.1 (some ([endMark], [endMark]))
    ∧ Yields (keyword "OR") start.2 start.1 none
    ∧ Yields (keyword "OR") next.2 next.1 (some ("OR", " OR".toList))
    ∧ last.1.isExhausted ∧ last.2.current last.1 = endMark
    ∧ ¬((codePoints [endMark]).run last.1 last.2).1.isSuccess
    ∧ ¬((several (fun _ => true) fun _ => true).run last.1 last.2).1.isSuccess
  := by
  intro start next last
  obtain ⟨hs, hc⟩ := ofSupply_spells (Supply.gives_codePoints "\x00 OR".toList)
  have hfirst : start.2.Stands "\x00 OR".toList start.1 (endMark :: " OR".toList) := hc
  have hall : start.2.Stands "\x00 OR".toList start.1 ("\x00 OR".toList ++ []) := hc
  have hnext := advance_moves hs hfirst
  have hlast := advances_moves hs hall
  obtain ⟨hseq, -, -, -, -, hkeyword, -⟩ := leaves_match_remaining hs hc
  obtain ⟨-, -, -, -, -, hkeyword', -⟩ :=
    leaves_match_remaining hnext.leads.spells hnext.stands
  obtain ⟨-, -, -, -, -, -, hend⟩ := leaves_match_remaining hlast.leads.spells hlast.stands
  have hexhausted : last.1.isExhausted := by decide +kernel
  obtain ⟨hmark, hseq', -, hseveral, -⟩ := hend hexhausted
  exact ⟨hseq [endMark], hkeyword "OR", hkeyword' "OR", hexhausted, hmark,
    mt (hseq' [endMark]).mp (List.cons_ne_nil _ _), hseveral _ _⟩

end Parser

end Formulary
