import Formulary.Formula.Grammar
import Formulary.Proofs.Parser.Words
import Formulary.Proofs.Tape.Supply
import Mathlib.Logic.Equiv.Defs

/-!
# Text literals

`Contents xs s rest` says that `xs`, after an opening quote, is the inside of a literal that stands
for `s`, with `rest` after the closing quote.  A backslash with a quote after it always stands for
the quote.

The parser of texts reads exactly these literals (`textScan_eq_some`).  A text has one literal, the
written form of the text, unless the text ends with a backslash; then it has none (`contents_iff`).
So to write texts and to read literals are inverse to each other (`text_spelled_once`).
-/

namespace Formulary.Formula

open Formulary.Parser

variable {xs s rest : List Char}

/-- The code points after an opening quote, the text they stand for, and what comes after the
closing quote. -/
inductive Contents : List Char → List Char → List Char → Prop where
  | close {rest : List Char} : Contents ('"' :: rest) [] rest
  | escape {xs s rest : List Char} (h : Contents xs s rest) :
      Contents ('\\' :: '"' :: xs) ('"' :: s) rest
  | plain {x : Char} {xs s rest : List Char} (quote : x ≠ '"')
      (escape : ¬(x = '\\' ∧ xs.head? = some '"')) (h : Contents xs s rest) :
      Contents (x :: xs) (x :: s) rest

/-! ### Written forms -/

theorem head?_escapeQuotes_ne_quote (s : List Char) :
  (Value.escapeQuotes s).head? ≠ some '"'
  := by
  cases s with
  | nil => simp [Value.escapeQuotes]
  | cons x xs =>
      rw [Value.escapeQuotes]
      split_ifs with hx
      · simp
      · simpa using hx

theorem Contents.eq_escapeQuotes (h : Contents xs s rest) :
  xs = Value.escapeQuotes s ++ '"' :: rest
  := by
  induction h with
  | close => rfl
  | escape h ih => rw [ih, Value.escapeQuotes, if_pos rfl, List.cons_append, List.cons_append]
  | plain quote escape h ih => rw [ih, Value.escapeQuotes, if_neg quote, List.cons_append]

/-- A backslash before the closing quote would make this stand for itself. -/
theorem Contents.getLast?_ne (h : Contents xs s rest) :
  s.getLast? ≠ some '\\'
  := by
  induction h with
  | close => simp
  | @escape _ s _ h ih =>
      cases s with
      | nil => simp
      | cons y ys => rwa [List.getLast?_cons_cons]
  | @plain x _ s _ quote escape h ih =>
      cases s with
      | nil =>
          cases h
          simpa using escape
      | cons y ys => rwa [List.getLast?_cons_cons]

theorem contents_escapeQuotes (h : s.getLast? ≠ some '\\') (rest : List Char) :
  Contents (Value.escapeQuotes s ++ '"' :: rest) s rest
  := by
  induction s with
  | nil => apply Contents.close
  | cons x xs ih =>
      have htail : xs.getLast? ≠ some '\\' := by
        cases xs with
        | nil => simp
        | cons y ys => rwa [List.getLast?_cons_cons] at h
      rw [Value.escapeQuotes]
      split_ifs with hx
      · subst hx
        apply Contents.escape (ih htail)
      · apply Contents.plain hx _ (ih htail)
        rintro ⟨rfl, hhead⟩
        cases xs with
        | nil => simp at h
        | cons y ys =>
            have hne : Value.escapeQuotes (y :: ys) ≠ [] := by
              rw [Value.escapeQuotes]
              split_ifs <;> simp
            obtain ⟨z, zs, hz⟩ := List.exists_cons_of_ne_nil hne
            apply head?_escapeQuotes_ne_quote (y :: ys)
            rw [hz] at hhead ⊢
            apply hhead

/-- A literal is the written form of its text, which does not end with a backslash. -/
theorem contents_iff :
  Contents xs s rest ↔ xs = Value.escapeQuotes s ++ '"' :: rest ∧ s.getLast? ≠ some '\\'
  := by
  constructor
  · intro h
    exact ⟨h.eq_escapeQuotes, h.getLast?_ne⟩
  · rintro ⟨rfl, h⟩
    apply contents_escapeQuotes h

/-! ### The parser of texts -/

/-- Reads a code point inside a literal. -/
def characterScan : Scan Char :=
  (((Scan.point '\\').both (.point '"')).map Prod.snd).orElse (.one (· ∉ ['"']))

/-- Reads a literal. -/
def textScan : Scan String :=
  ((((Scan.point '"').both (characterScan.foldl "" String.push)).map Prod.snd).both
    (.point '"')).map Prod.fst

theorem denotes_text :
  Denotes text textScan
  := by
  have hcharacter : Denotes _ characterScan :=
    ((denotes_codePoint '\\').both (denotes_codePoint '"')).snd.orElse (denotes_codePointNot ['"'])
  apply ((((denotes_codePoint '"').both (hcharacter.foldl "" String.push)).snd).both
    (denotes_codePoint '"')).fst

theorem characterScan_eq_some {x : Char} :
  characterScan.read xs = some (x, rest)
    ↔ x = '"' ∧ xs = '\\' :: '"' :: rest
      ∨ x ≠ '"' ∧ xs = x :: rest ∧ ¬(x = '\\' ∧ rest.head? = some '"')
  := by
  have hescape {y : Char} {ys : List Char} :
      (((Scan.point '\\').both (.point '"')).map Prod.snd).read xs = some (y, ys)
        ↔ y = '"' ∧ xs = '\\' :: '"' :: ys := by
    rw [Scan.map_eq_some]
    constructor
    · rintro ⟨⟨a, b⟩, h, rfl⟩
      obtain ⟨zs, ha, hb⟩ := Scan.both_eq_some.mp h
      obtain ⟨rfl, rfl⟩ := Scan.point_eq_some.mp ha
      obtain ⟨rfl, rfl⟩ := Scan.point_eq_some.mp hb
      exact ⟨rfl, rfl⟩
    · rintro ⟨rfl, rfl⟩
      exact ⟨('\\', '"'), rfl, rfl⟩
  rw [characterScan, Scan.orElse_eq_some, hescape, Scan.one_eq_some,
    Option.eq_none_iff_forall_ne_some]
  constructor
  · rintro (h | ⟨hnone, rfl, hx⟩)
    · exact .inl h
    · right
      refine ⟨by simpa using hx, rfl, ?_⟩
      rintro ⟨rfl, hhead⟩
      obtain ⟨ys, rfl⟩ := List.head?_eq_some_iff.mp hhead
      apply hnone ('"', ys)
      apply hescape.mpr
      exact ⟨rfl, rfl⟩
  · rintro (h | ⟨hx, rfl, hne⟩)
    · exact .inl h
    · right
      refine ⟨?_, rfl, by simpa using hx⟩
      rintro ⟨y, ys⟩ h
      obtain ⟨-, h⟩ := hescape.mp h
      obtain ⟨rfl, rfl⟩ := List.cons_eq_cons.mp h
      apply hne
      exact ⟨rfl, rfl⟩

theorem gather_of_contents (h : Contents xs s rest) (passed : String) :
  characterScan.gather String.push passed xs = (passed ++ String.ofList s, '"' :: rest)
  := by
  induction h generalizing passed with
  | @close rest =>
      have hread : characterScan.read ('"' :: rest) = none := by
        rw [Option.eq_none_iff_forall_ne_some]
        rintro ⟨x, ys⟩ hx
        rcases characterScan_eq_some.mp hx with ⟨-, h⟩ | ⟨hne, h, -⟩
        · exact absurd (List.cons_eq_cons.mp h).1 (by decide)
        · apply hne (List.cons_eq_cons.mp h).1.symm
      rw [Scan.gather_of_none hread]
      simp
  | @escape xs s rest h ih =>
      have hread : characterScan.read ('\\' :: '"' :: xs) = some ('"', xs) := by
        simp [characterScan_eq_some]
      have hlt : xs.length < ('\\' :: '"' :: xs).length := by
        simp only [List.length_cons]
        omega
      rw [Scan.gather_of_some hread hlt, ih, Tape.push_append_ofList]
  | @plain x xs s rest quote escape h ih =>
      have hread : characterScan.read (x :: xs) = some (x, xs) :=
        characterScan_eq_some.mpr (.inr ⟨quote, rfl, escape⟩)
      rw [Scan.gather_of_some hread (by simp), ih, Tape.push_append_ofList]

theorem contents_of_gather {passed found : String}
    (h : characterScan.gather String.push passed xs = (found, '"' :: rest)) :
  ∃ s, found = passed ++ String.ofList s ∧ Contents xs s rest
  := by
  fun_induction Scan.gather characterScan String.push passed xs with
  | case1 passed xs hread =>
      obtain ⟨rfl, rfl⟩ := Prod.mk.inj h
      exact ⟨[], by simp, .close⟩
  | case2 passed xs x ys hread hlt ih =>
      obtain ⟨s, rfl, hs⟩ := ih h
      use x :: s
      constructor
      · apply Tape.push_append_ofList
      · rcases characterScan_eq_some.mp hread with ⟨rfl, rfl⟩ | ⟨hx, rfl, hne⟩
        · apply Contents.escape hs
        · apply Contents.plain hx hne hs
  | case3 passed xs x ys hread hlt =>
      exfalso
      apply hlt
      rcases characterScan_eq_some.mp hread with ⟨-, rfl⟩ | ⟨-, rfl, -⟩
      · simp only [List.length_cons]
        omega
      · apply Nat.lt_succ_self

/-- A text is read where a literal of it stands. -/
theorem textScan_eq_some {found : String} :
  textScan.read xs = some (found, rest) ↔ ∃ ys, xs = '"' :: ys ∧ Contents ys found.toList rest
  := by
  rw [textScan, Scan.map_eq_some]
  constructor
  · rintro ⟨⟨a, q⟩, h, rfl⟩
    obtain ⟨zs, ha, hq⟩ := Scan.both_eq_some.mp h
    obtain ⟨⟨q', b⟩, hb, rfl⟩ := Scan.map_eq_some.mp ha
    obtain ⟨ys, hq', hgather⟩ := Scan.both_eq_some.mp hb
    obtain ⟨rfl, rfl⟩ := Scan.point_eq_some.mp hq
    obtain ⟨rfl, rfl⟩ := Scan.point_eq_some.mp hq'
    obtain ⟨s, rfl, hs⟩ := contents_of_gather (Option.some.inj hgather)
    use ys, rfl
    simpa using hs
  · rintro ⟨ys, rfl, h⟩
    use (found, '"')
    refine ⟨?_, rfl⟩
    apply Scan.both_eq_some.mpr
    use '"' :: rest
    refine ⟨?_, Scan.point_eq_some.mpr ⟨rfl, rfl⟩⟩
    apply Scan.map_eq_some.mpr
    use ('"', found)
    refine ⟨?_, rfl⟩
    apply Scan.both_eq_some.mpr
    use ys
    refine ⟨Scan.point_eq_some.mpr ⟨rfl, rfl⟩, ?_⟩
    apply congrArg some
    rw [gather_of_contents h, String.ofList_toList, String.empty_append]

/-- The inside of a literal stands for one text and has one end. -/
theorem Contents.unique {s' rest' : List Char} (h : Contents xs s rest)
    (h' : Contents xs s' rest') :
  s = s' ∧ rest = rest'
  := by
  have hread {s rest : List Char} (h : Contents xs s rest) :
      textScan.read ('"' :: xs) = some (String.ofList s, rest) :=
    textScan_eq_some.mpr ⟨xs, rfl, by rwa [String.toList_ofList]⟩
  obtain ⟨hs, hrest⟩ := Prod.mk.inj (Option.some.inj ((hread h).symm.trans (hread h')))
  exact ⟨String.ofList_injective hs, hrest⟩

/-! ### Written and read -/

/-- A text is read where its written form stands, and nowhere else. -/
theorem textScan_eq_some_iff_render {s r : String} :
  textScan.read xs = some (s, r.toList)
    ↔ String.ofList xs = (Value.str s).render ++ r ∧ s.toList.getLast? ≠ some '\\'
  := by
  have hrender : String.ofList xs = (Value.str s).render ++ r
      ↔ xs = '"' :: (Value.escapeQuotes s.toList ++ '"' :: r.toList) := by
    rw [← String.toList_inj]
    simp [Value.render, Value.renderText]
  rw [textScan_eq_some, hrender]
  simp only [contents_iff]
  constructor
  · rintro ⟨ys, rfl, rfl, hlast⟩
    exact ⟨rfl, hlast⟩
  · rintro ⟨rfl, hlast⟩
    exact ⟨_, rfl, rfl, hlast⟩

theorem onText_text_eq_some {l s r : String} :
  text.onText l = some (s, r) ↔ l = (Value.str s).render ++ r ∧ s.toList.getLast? ≠ some '\\'
  := by
  rw [← String.ofList_toList (s := l), ← textScan_eq_some_iff_render, denotes_text.onText_eq,
    String.toList_ofList, Option.map_eq_some_iff]
  constructor
  · rintro ⟨⟨found, rest⟩, hread, heq⟩
    obtain ⟨rfl, rfl⟩ := Prod.mk.inj heq
    rwa [String.toList_ofList]
  · intro hread
    use (s, r.toList), hread
    simp

/-- A text and its literal: the literal is the written form of the text, and the text is what is
read of the literal. -/
def literal :
    {s : String // s.toList.getLast? ≠ some '\\'}
      ≃ {l : String // ∃ s, text.onText l = some (s, "")} where
  toFun s := ⟨(Value.str s).render, s, onText_text_eq_some.mpr ⟨by simp, s.2⟩⟩
  invFun l :=
    ⟨((text.onText l).get (by obtain ⟨s, hs⟩ := l.2; simp [hs])).1, by
      obtain ⟨s, hs⟩ := l.2
      simpa [hs] using (onText_text_eq_some.mp hs).2⟩
  left_inv s := by
    apply Subtype.ext
    simp [onText_text_eq_some.mpr ⟨(String.append_empty).symm, s.2⟩]
  right_inv l := by
    obtain ⟨l, s, hs⟩ := l
    apply Subtype.ext
    have hl := (onText_text_eq_some.mp hs).1
    simpa [hs] using hl.symm

/-- From any cursor on any tape a text is read just where its written form stands, with everything
after this left over, and only a text that does not end with a backslash.  To write texts and to
read literals are inverse to each other. -/
theorem text_spelled_once :
  (∀ {tape : Tape} {whole rest : List Char} {c : Cursor}, tape.Spells whole →
      tape.Stands whole c rest → ∀ s r : String,
        (∃ remaining tape', text.run c tape = (.success s remaining, tape')
            ∧ (tape'.rest remaining).1 = r)
          ↔ (tape.rest c).1 = (Value.str s).render ++ r ∧ s.toList.getLast? ≠ some '\\')
    ∧ (∀ s, (literal s).1 = (Value.str s.1).render)
    ∧ ∀ l : {l : String // ∃ s, text.onText l = some (s, "")},
        text.onText l.1 = some ((literal.symm l).1, "")
  := by
  refine ⟨?_, fun _ => rfl, ?_⟩
  · intro tape whole rest c h hc s r
    have hread := denotes_text h hc
    rw [Tape.rest_eq h hc, ← textScan_eq_some_iff_render]
    generalize text.run c tape = outcome, textScan.read rest = found at hread ⊢
    cases hread with
    | failure leads =>
        constructor
        · rintro ⟨_, _, heq, -⟩
          cases heq
        · intro heq
          cases heq
    | @success a rest' c' tape' moves =>
        have hrest := Tape.rest_eq moves.leads.spells moves.stands
        constructor
        · rintro ⟨_, _, heq, rfl⟩
          cases heq
          rw [hrest, String.toList_ofList]
        · intro heq
          cases heq
          exact ⟨c', tape', rfl, by rw [hrest, String.ofList_toList]⟩
  · intro l
    obtain ⟨s, hs⟩ := l.2
    simp [literal, hs]

/-- In a stream, a text that ends with a backslash and a quote is read from its literal, and the
quote after this is left over. -/
theorem text_spelled_once_escaped :
  let start := Tape.ofSupply (.codePoints "\"\\\\\"\"\"".toList)
  ∃ remaining tape', text.run start.1 start.2 = (.success "\\\"" remaining, tape')
    ∧ (tape'.rest remaining).1 = "\""
  := by
  intro start
  obtain ⟨h, hc⟩ := Tape.ofSupply_spells (Supply.gives_codePoints "\"\\\\\"\"\"".toList)
  apply (text_spelled_once.1 h hc _ _).mpr
  constructor
  · rw [Tape.rest_eq h hc]
    decide +kernel
  · decide

end Formulary.Formula
