import Formulary.Parser.Lexical
import Formulary.Proofs.Parser.Denotation
import Mathlib.Data.List.DropRight

/-!
# Words and spaces

What the parsers of words and tokens read, said of lists of code points: `Gap xs ys`, that `ys`
comes after spaces of `xs`, and `WordAt xs word rest`, that after spaces `xs` goes on with `word`,
which is as long as it can be, and with `rest` after it.

The parser of a keyword reads exactly the whole word (`keyword_eq_some`).  At most one word stands
at any place (`WordAt.unique`), and at most one code point that is no space (`Gap.unique`).
-/

namespace Formulary

variable {α : Type} {xs ys rest : List Char}

/-! ### Spaces -/

/-- `xs` is any number of spaces and then `ys`. -/
def Gap (xs ys : List Char) : Prop :=
  ∃ spaces : List Char, (∀ x ∈ spaces, isSpace x) ∧ xs = spaces ++ ys

theorem gap_iff :
  Gap xs ys ↔ ∃ spaces : List Char,
    (∀ x ∈ spaces, x = ' ' ∨ x = '\t' ∨ x = '\r' ∨ x = '\n') ∧ xs = spaces ++ ys
  := by simp only [Gap, isSpace_iff]

theorem Gap.refl (xs : List Char) :
  Gap xs xs
  := ⟨[], by simp, rfl⟩

theorem Gap.cons {x : Char} (hx : isSpace x) (h : Gap xs ys) :
  Gap (x :: xs) ys
  := by
  obtain ⟨spaces, hspaces, rfl⟩ := h
  use x :: spaces
  simp only [List.mem_cons, forall_eq_or_imp, List.cons_append, and_true]
  exact ⟨hx, hspaces⟩

theorem gap_dropWhile (xs : List Char) :
  Gap xs (xs.dropWhile isSpace)
  := by
  use xs.takeWhile isSpace
  constructor
  · intro x hx
    apply List.mem_takeWhile_imp hx
  · rw [List.takeWhile_append_dropWhile]

/-- The spaces before a code point that is none are all the spaces there are. -/
theorem Gap.dropWhile_eq {y : Char} (h : Gap xs (y :: ys)) (hy : ¬isSpace y) :
  xs.dropWhile isSpace = y :: ys
  := by
  obtain ⟨spaces, hspaces, rfl⟩ := h
  rw [List.dropWhile_append_of_pos hspaces, List.dropWhile_cons_of_neg hy]

theorem Gap.unique {y z : Char} {zs : List Char} (h : Gap xs (y :: ys)) (h' : Gap xs (z :: zs))
    (hy : ¬isSpace y) (hz : ¬isSpace z) :
  y = z ∧ ys = zs
  := by
  apply List.cons_eq_cons.mp
  rw [← h.dropWhile_eq hy, h'.dropWhile_eq hz]

theorem dropWhile_isSpace_eq_cons {y : Char} (hy : ¬isSpace y) :
  xs.dropWhile isSpace = y :: ys ↔ Gap xs (y :: ys)
  := by
  constructor
  · intro h
    rw [← h]
    apply gap_dropWhile
  · intro h
    apply h.dropWhile_eq hy

theorem Gap.length_le (h : Gap xs ys) :
  ys.length ≤ xs.length
  := by
  obtain ⟨spaces, -, rfl⟩ := h
  simp

/-! ### Words -/

/-- The code points are those of a word. -/
def IsWord : List Char → Prop
  | [] => False
  | x :: xs => isIdentifierStart x ∧ ∀ y ∈ xs, isIdentifierChar y

instance : DecidablePred IsWord
  | [] => .isFalse id
  | x :: xs => decidable_of_iff (isIdentifierStart x && xs.all isIdentifierChar) (by simp [IsWord])

/-- A word is a letter or an underscore and then letters, underscores and digits. -/
theorem isWord_cons_iff {x : Char} :
  IsWord (x :: xs)
    ↔ (('A' ≤ x ∧ x ≤ 'Z') ∨ ('a' ≤ x ∧ x ≤ 'z') ∨ x = '_')
      ∧ ∀ y ∈ xs, ('A' ≤ y ∧ y ≤ 'Z') ∨ ('a' ≤ y ∧ y ≤ 'z') ∨ y = '_' ∨ ('0' ≤ y ∧ y ≤ '9')
  := by simp only [IsWord, isIdentifierStart_iff, isIdentifierChar_iff]

/-- No word goes on into `rest`. -/
def EndsWord (rest : List Char) : Prop := ∀ x ∈ rest.head?, ¬isIdentifierChar x

/-- After any spaces comes a word, as long as it can be, and then `rest`. -/
structure WordAt (xs : List Char) (word : String) (rest : List Char) : Prop where
  gap : Gap xs (word.toList ++ rest)
  isWord : IsWord word.toList
  ends : EndsWord rest

theorem not_isSpace_of_isIdentifierStart {x : Char} (h : isIdentifierStart x) :
  ¬isSpace x
  := by
  intro hx
  rcases isSpace_iff.mp hx with rfl | rfl | rfl | rfl <;> revert h <;> decide

theorem not_isIdentifierChar_of_isSpace {x : Char} (h : isSpace x) :
  ¬isIdentifierChar x
  := by
  rcases isSpace_iff.mp h with rfl | rfl | rfl | rfl <;> decide

theorem EndsWord.nil :
  EndsWord []
  := by
  intro x hx
  cases hx

theorem EndsWord.cons {x : Char} (hx : ¬isIdentifierChar x) (xs : List Char) :
  EndsWord (x :: xs)
  := by
  intro y hy
  obtain rfl : x = y := Option.some.inj hy
  apply hx

namespace Scan

/-- Reads a word. -/
def identifier : Scan String := several isIdentifierStart isIdentifierChar

/-- Reads with `f` after any spaces. -/
def spaced (f : Scan α) : Scan α where
  read xs := f.read (xs.dropWhile isSpace)
  suffix h := (f.suffix h).trans (List.dropWhile_suffix _)

/-- After any spaces there are no more. -/
theorem spaced_spaced (f : Scan α) :
  f.spaced.spaced = f.spaced
  := by
  ext1 xs
  simp only [spaced, List.dropWhile_idempotent]

/-- Reads the text `s` after any spaces. -/
def token (s : String) : Scan String := ((literal s.toList).map String.ofList).spaced

/-- Reads a word after any spaces, if it is `word`. -/
def keyword (word : String) : Scan String :=
  (identifier.filterMap fun found => if found = word then some found else none).spaced

theorem identifier_eq_some {word : String} :
  identifier.read xs = some (word, rest)
    ↔ xs = word.toList ++ rest ∧ IsWord word.toList ∧ EndsWord rest
  := by
  rw [identifier, several_eq_some]
  constructor
  · rintro ⟨x, ys, hword, rfl, hx, hys, hends⟩
    rw [hword]
    exact ⟨rfl, ⟨hx, hys⟩, hends⟩
  · rintro ⟨rfl, hword, hends⟩
    cases hw : word.toList with
    | nil =>
        rw [hw] at hword
        cases hword
    | cons x ys =>
        rw [hw] at hword
        exact ⟨x, ys, rfl, rfl, hword.1, hword.2, hends⟩

/-- Words are read as they stand in the text. -/
theorem spaced_identifier_eq_some {word : String} :
  identifier.spaced.read xs = some (word, rest) ↔ WordAt xs word rest
  := by
  constructor
  · intro h
    obtain ⟨hxs, hword, hends⟩ := identifier_eq_some.mp h
    exact ⟨hxs ▸ gap_dropWhile xs, hword, hends⟩
  · rintro ⟨hgap, hword, hends⟩
    apply identifier_eq_some.mpr
    refine ⟨?_, hword, hends⟩
    cases hw : word.toList with
    | nil =>
        rw [hw] at hword
        cases hword
    | cons x xs =>
        rw [hw] at hgap hword
        apply hgap.dropWhile_eq (not_isSpace_of_isIdentifierStart hword.1)

theorem spaced_filterMap_identifier_eq_some {φ : String → Option α} {a : α} :
  (identifier.filterMap φ).spaced.read xs = some (a, rest)
    ↔ ∃ word, WordAt xs word rest ∧ φ word = some a
  := by
  simp only [← spaced_identifier_eq_some, spaced]
  apply filterMap_eq_some

/-- A keyword is read where it stands as a whole word. -/
theorem keyword_eq_some {word found : String} :
  (keyword word).read xs = some (found, rest) ↔ found = word ∧ WordAt xs word rest
  := by
  rw [keyword, spaced_filterMap_identifier_eq_some]
  constructor
  · rintro ⟨w, hw, h⟩
    obtain ⟨rfl, hfound⟩ := Option.ite_none_right_eq_some.mp h
    exact ⟨(Option.some.inj hfound).symm, hw⟩
  · rintro ⟨rfl, h⟩
    use found, h
    rw [if_pos rfl]

/-- A token of one code point is read where this stands. -/
theorem token_eq_some {s found : String} {x : Char} (hs : s.toList = [x]) (hx : ¬isSpace x) :
  (token s).read xs = some (found, rest) ↔ found = s ∧ Gap xs (x :: rest)
  := by
  rw [token, spaced, map_eq_some]
  simp only [literal_eq_some]
  constructor
  · rintro ⟨a, ⟨rfl, hxs⟩, rfl⟩
    rw [String.ofList_toList]
    use rfl
    have := gap_dropWhile xs
    rwa [hxs, hs] at this
  · rintro ⟨rfl, hgap⟩
    use found.toList
    rw [hgap.dropWhile_eq hx, hs]
    refine ⟨⟨rfl, rfl⟩, ?_⟩
    rw [← hs, String.ofList_toList]

theorem token_length_lt {s found : String} {x : Char} (hs : s.toList = [x]) (hx : ¬isSpace x)
    (h : (token s).read xs = some (found, rest)) :
  rest.length < xs.length
  := by
  obtain ⟨-, hgap⟩ := (token_eq_some hs hx).mp h
  apply hgap.length_le

/-- Reads with `f` between parentheses. -/
def parenthesised (f : Scan α) : Scan α :=
  ((((token "(").both f).both (token ")")).map Prod.fst).map Prod.snd

theorem parenthesised_eq_some {f : Scan α} {a : α} :
  f.parenthesised.read xs = some (a, rest)
    ↔ ∃ ys zs, Gap xs ('(' :: ys) ∧ f.read ys = some (a, zs) ∧ Gap zs (')' :: rest)
  := by
  have hopening {ys zs : List Char} {s : String} :
      (token "(").read ys = some (s, zs) ↔ s = "(" ∧ Gap ys ('(' :: zs) :=
    token_eq_some rfl (by decide)
  have hclosing {ys zs : List Char} {s : String} :
      (token ")").read ys = some (s, zs) ↔ s = ")" ∧ Gap ys (')' :: zs) :=
    token_eq_some rfl (by decide)
  simp only [parenthesised, map_eq_some, Prod.exists, both_eq_some, hopening, hclosing]
  constructor
  · rintro ⟨_, u, ⟨_, _, _, ⟨zs, ⟨ys, ⟨rfl, ho⟩, hf⟩, rfl, hc⟩, heq⟩, rfl⟩
    obtain ⟨rfl, rfl⟩ := Prod.mk.inj heq
    use ys, zs
  · rintro ⟨ys, zs, ho, hf, hc⟩
    refine ⟨"(", a, ⟨"(", a, ")", ⟨zs, ⟨ys, ⟨rfl, ho⟩, hf⟩, rfl, hc⟩, rfl⟩, rfl⟩

/-- The opening parenthesis is passed before `f` reads. -/
theorem AgreeBelow.parenthesised {n : Nat} {f g : Scan α} (h : AgreeBelow n f g) :
  AgreeBelow (n + 1) f.parenthesised g.parenthesised
  := by
  have hopening : AgreeBelow (n + 1) ((token "(").both f) ((token "(").both g) := by
    apply AgreeBelow.bind_of_lt (token_length_lt rfl (by decide))
    intro _
    apply h.map
  apply ((hopening.both (AgreeBelow.refl _ _)).map _).map

end Scan

/-- One more space before a word makes no difference. -/
theorem WordAt.cons {x : Char} {word : String} (hx : isSpace x) (h : WordAt xs word rest) :
  WordAt (x :: xs) word rest
  := ⟨h.gap.cons hx, h.isWord, h.ends⟩

theorem wordAt_append {word : String} (hword : IsWord word.toList) (hends : EndsWord rest) :
  WordAt (word.toList ++ rest) word rest
  := ⟨Gap.refl _, hword, hends⟩

/-- At most one word stands at a place. -/
theorem WordAt.unique {word word' : String} {rest' : List Char} (h : WordAt xs word rest)
    (h' : WordAt xs word' rest') :
  word = word' ∧ rest = rest'
  := by
  apply Prod.mk.inj
  apply Option.some.inj
  rw [← Scan.spaced_identifier_eq_some.mpr h, Scan.spaced_identifier_eq_some.mpr h']

/-- Where a word stands there is no code point with which none begins. -/
theorem WordAt.not_gap {word : String} {y : Char} (h : WordAt xs word rest)
    (hy : ¬isIdentifierStart y) (hspace : ¬isSpace y) :
  ¬Gap xs (y :: ys)
  := by
  intro hgap
  obtain ⟨hw, hword, -⟩ := h
  cases hl : word.toList with
  | nil =>
      rw [hl] at hword
      cases hword
  | cons x xs =>
      rw [hl] at hword hw
      obtain ⟨rfl, -⟩ := hw.unique hgap (not_isSpace_of_isIdentifierStart hword.1) hspace
      apply hy hword.1

theorem WordAt.length_lt {word : String} (h : WordAt xs word rest) :
  rest.length < xs.length
  := by
  have hlength := h.gap.length_le
  have hword : word.toList ≠ [] := by
    intro hw
    have := h.isWord
    rw [hw] at this
    apply this
  have := List.length_pos_iff.mpr hword
  rw [List.length_append] at hlength
  omega

/-! ### The parsers of words -/

namespace Parser

theorem denotes_identifier :
  Denotes identifier Scan.identifier
  := denotes_several _ _

/-- Spaces are passed, and there may be none. -/
theorem denotes_spaces :
  ∃ f, Denotes spaces f ∧
    ∀ xs, f.read xs = some (String.ofList (xs.takeWhile isSpace), xs.dropWhile isSpace)
  := by
  use ((Scan.several isSpace isSpace).optional).map fun s => s.getD ""
  constructor
  · apply (denotes_several isSpace isSpace).optional.map
  · intro xs
    apply Scan.map_eq_some.mpr
    cases xs with
    | nil => exact ⟨none, rfl, rfl⟩
    | cons x xs =>
        by_cases hx : isSpace x
        · use some (String.ofList (x :: xs.takeWhile isSpace))
          simp [Scan.optional, Scan.orElse, Scan.map, Scan.bind, Scan.several, hx, Scan.succeed]
        · use none
          simp [Scan.optional, Scan.orElse, Scan.map, Scan.bind, Scan.several, hx, Scan.succeed]

theorem Denotes.spaced {p : Parser α} {f : Scan α} (hp : Denotes p f) :
  Denotes (spaced p) f.spaced
  := by
  obtain ⟨g, hg, hread⟩ := denotes_spaces
  have h := (hg.both hp).snd
  have heq : (g.both f).map Prod.snd = f.spaced := by
    ext1 xs
    simp only [Scan.map, Scan.both, Scan.bind, Scan.spaced, hread]
    cases f.read (xs.dropWhile isSpace) <;> rfl
  rw [heq] at h
  apply h

theorem denotes_token (s : String) :
  Denotes (token s) (.token s)
  := (denotes_string s).spaced

theorem Denotes.parenthesised {p : Parser α} {f : Scan α} (hp : Denotes p f) :
  Denotes (((token "(").both p).both (token ")")).fst.snd f.parenthesised
  := (((denotes_token "(").both hp).both (denotes_token ")")).fst.snd

theorem denotes_keyword (word : String) :
  Denotes (keyword word) (.keyword word)
  := (denotes_identifier.filterMap _).spaced

end Parser

end Formulary
