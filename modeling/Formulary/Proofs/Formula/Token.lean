import Formulary.Proofs.Formula.Scanning

/-!
# Tokens and layouts

A formula is written as a list of tokens.  A *layout* of the list is a text in which the tokens
stand in order, with any spaces before, between and after them, and with at least one between two
words.

The scans that read a token see no spaces: on any layout they read what they read of the first token
(`ReadsToken`), and leave a layout of the tokens after it.
-/

namespace Formulary

/-! ### Tokens -/

/-- A word, the literal of a text, a parenthesis or an equality sign. -/
inductive Token where
  | word (s : String) (isWord : IsWord s.toList)
  | text (s : String) (closed : s.toList.getLast? ≠ some '\\')
  | opening
  | closing
  | sign
deriving DecidableEq

namespace Token

/-- The written form of a token. -/
def spelling : Token → List Char
  | word s _ => s.toList
  | text s _ => (Value.renderText s).toList
  | opening => ['(']
  | closing => [')']
  | sign => ['=']

/-- The word, if the token is one. -/
def word? : Token → Option String
  | word s _ => some s
  | _ => none

/-- The text, if the token is a literal. -/
def text? : Token → Option String
  | text s _ => some s
  | _ => none

/-- The token ends before `rest`: it is no word that goes on there. -/
def Ends (token : Token) (rest : List Char) : Prop := token.word?.isSome → EndsWord rest

variable {token : Token}

theorem spelling_text (s : String) (h : s.toList.getLast? ≠ some '\\') (rest : List Char) :
  (text s h).spelling ++ rest = '"' :: (Value.escapeQuotes s.toList ++ '"' :: rest)
  := by simp [spelling, Value.renderText]

/-- A token begins with a code point that is no space, a word with one of its kind, and any other
token with one that is in no word. -/
theorem exists_spelling_eq_cons (token : Token) :
  ∃ x xs, token.spelling = x :: xs ∧ ¬isSpace x
    ∧ (token.word? ≠ none → isIdentifierStart x) ∧ (token.word? = none → ¬isIdentifierChar x)
  := by
  cases token with
  | word s isWord =>
      cases hs : s.toList with
      | nil =>
          rw [hs] at isWord
          cases isWord
      | cons x xs =>
          rw [hs] at isWord
          refine ⟨x, xs, hs, not_isSpace_of_isIdentifierStart isWord.1, fun _ => isWord.1, ?_⟩
          intro h
          cases h
  | text s closed =>
      have hspelling := spelling_text s closed []
      rw [List.append_nil] at hspelling
      exact ⟨'"', _, hspelling, by decide, fun h => absurd rfl h, fun _ => by decide⟩
  | _ => exact ⟨_, _, rfl, by decide, fun h => absurd rfl h, fun _ => by decide⟩

/-- Spaces before a token do not belong to it. -/
theorem dropWhile_isSpace {xs rest : List Char} (h : Gap xs (token.spelling ++ rest)) :
  xs.dropWhile isSpace = token.spelling ++ rest
  := by
  obtain ⟨x, ys, hspelling, hx, -⟩ := token.exists_spelling_eq_cons
  rw [hspelling] at h ⊢
  apply h.dropWhile_eq hx

end Token

/-! ### Layouts -/

/-- Between two words, the first of them before `rest`, stands a space. -/
def Token.Apart (token : Token) (tokens : List Token) (rest : List Char) : Prop :=
  ∀ next ∈ tokens.head?, token.word?.isSome → next.word?.isSome → ∃ x ∈ rest.head?, isSpace x

/-- The tokens in order, with spaces anywhere around them, and with some between two words. -/
inductive Layout : List Token → List Char → Prop where
  | nil {xs : List Char} (gap : Gap xs []) : Layout [] xs
  | cons {token : Token} {tokens : List Token} {xs rest : List Char}
      (gap : Gap xs (token.spelling ++ rest)) (apart : token.Apart tokens rest)
      (tail : Layout tokens rest) : Layout (token :: tokens) xs

variable {token : Token} {tokens : List Token} {xs rest rest' : List Char}

/-- No word goes on into spaces, nor into what comes after them if there are none. -/
theorem Gap.endsWord (h : Gap xs rest) (hrest : EndsWord rest) :
  EndsWord xs
  := by
  obtain ⟨spaces, hspaces, rfl⟩ := h
  cases spaces with
  | nil => apply hrest
  | cons x _ => apply EndsWord.cons (not_isIdentifierChar_of_isSpace (hspaces x (by simp)))

theorem gap_nil_iff :
  Gap xs [] ↔ xs.dropWhile isSpace = []
  := by
  constructor
  · rintro ⟨spaces, hspaces, rfl⟩
    rw [List.append_nil]
    apply List.dropWhile_eq_nil_iff.mpr hspaces
  · intro h
    rw [← h]
    apply gap_dropWhile

/-- In a layout every token ends where the layout of the later ones begins. -/
theorem Layout.ends (h : Layout tokens rest) (apart : token.Apart tokens rest) :
  token.Ends rest
  := by
  intro hword
  cases h with
  | nil gap => apply gap.endsWord .nil
  | @cons next _ _ rest' gap _ _ =>
      by_cases hnext : next.word?.isSome
      · obtain ⟨x, hx, hspace⟩ := apart next rfl hword hnext
        intro y hy
        obtain rfl := Option.mem_unique hx hy
        apply not_isIdentifierChar_of_isSpace hspace
      · obtain ⟨x, ys, hspelling, -, -, hx⟩ := next.exists_spelling_eq_cons
        rw [hspelling, List.cons_append] at gap
        apply gap.endsWord (.cons (hx (by simpa using hnext)) _)

/-- Spaces at the beginning of a layout can be left out. -/
theorem Layout.dropWhile_isSpace (h : Layout tokens xs) :
  Layout tokens (xs.dropWhile isSpace)
  := by
  cases h with
  | nil gap =>
      rw [gap_nil_iff.mp gap]
      exact .nil (Gap.refl [])
  | cons gap apart tail =>
      rw [Token.dropWhile_isSpace gap]
      exact .cons (Gap.refl _) apart tail

/-- A layout is checked token by token. -/
theorem layout_cons_iff :
  Layout (token :: tokens) xs
    ↔ let rest := (xs.dropWhile isSpace).drop token.spelling.length
      xs.dropWhile isSpace = token.spelling ++ rest ∧ token.Apart tokens rest ∧ Layout tokens rest
  := by
  constructor
  · intro h
    cases h with
    | cons gap apart tail =>
        simp only [Token.dropWhile_isSpace gap, List.drop_left]
        exact ⟨trivial, apart, tail⟩
  · rintro ⟨hspelling, apart, tail⟩
    refine .cons ?_ apart tail
    rw [← hspelling]
    apply gap_dropWhile

theorem layout_nil_iff :
  Layout [] xs ↔ xs.dropWhile isSpace = []
  := by
  rw [← gap_nil_iff]
  constructor
  · intro h
    cases h with
    | nil gap => apply gap
  · intro gap
    apply Layout.nil gap

instance decidableApart (token : Token) (tokens : List Token) (rest : List Char) :
    Decidable (token.Apart tokens rest) :=
  inferInstanceAs (Decidable (∀ next ∈ tokens.head?, token.word?.isSome → next.word?.isSome →
    ∃ x ∈ rest.head?, isSpace x))

instance decidableLayout : (tokens : List Token) → (xs : List Char) → Decidable (Layout tokens xs)
  | [], _ => decidable_of_iff _ layout_nil_iff.symm
  | token :: tokens, xs =>
    have := decidableLayout tokens ((xs.dropWhile isSpace).drop token.spelling.length)
    decidable_of_iff _ layout_cons_iff.symm

/-! ### What stands at the beginning of a layout -/

theorem Gap.not_nil {x : Char} (h : Gap xs (x :: rest)) (hx : ¬isSpace x) :
  ¬Gap xs []
  := by
  rw [gap_nil_iff, h.dropWhile_eq hx]
  apply List.cons_ne_nil

theorem WordAt.not_gap_nil {word : String} (h : WordAt xs word rest) :
  ¬Gap xs []
  := by
  obtain ⟨x, ys, hspelling, hx, -⟩ := (Token.word word h.isWord).exists_spelling_eq_cons
  have hgap : Gap xs ((Token.word word h.isWord).spelling ++ rest) := h.gap
  rw [hspelling] at hgap
  apply hgap.not_nil hx

/-- A code point that is no space stands at the beginning if it begins the first token. -/
theorem gap_cons_iff {x : Char} (h : Gap xs (token.spelling ++ rest)) (hx : ¬isSpace x) :
  Gap xs (x :: rest') ↔ token.spelling ++ rest = x :: rest'
  := by rw [← dropWhile_isSpace_eq_cons hx, Token.dropWhile_isSpace h]

/-- The word at the beginning is the first token. -/
theorem wordAt_iff {word : String} (h : Gap xs (token.spelling ++ rest)) (hends : token.Ends rest) :
  WordAt xs word rest' ↔ token.word? = some word ∧ rest' = rest
  := by
  constructor
  · intro hword
    cases hs : token.word? with
    | none =>
        obtain ⟨x, ys, hspelling, hx, -, hchar⟩ := token.exists_spelling_eq_cons
        rw [hspelling] at h
        have hstart : ¬isIdentifierStart x := fun hstart =>
          hchar hs (by simp [isIdentifierChar, hstart])
        exact absurd h (hword.not_gap hstart hx)
    | some s =>
        cases token with
        | word s' isWord =>
            obtain ⟨rfl, rfl⟩ := hword.unique ⟨h, isWord, hends rfl⟩
            exact ⟨hs.symm, rfl⟩
        | _ => cases hs
  · rintro ⟨hword, rfl⟩
    cases token with
    | word s isWord =>
        obtain rfl := Option.some.inj hword
        exact ⟨h, isWord, hends rfl⟩
    | _ => cases hword

/-- A code point with which no word begins begins no word. -/
theorem Token.word?_eq_none {x : Char} (hx : ¬isIdentifierStart x)
    (h : token.spelling ++ rest = x :: rest') :
  token.word? = none
  := by
  obtain ⟨y, ys, hspelling, -, hstart, -⟩ := token.exists_spelling_eq_cons
  rw [hspelling] at h
  obtain ⟨rfl, -⟩ := List.cons_eq_cons.mp h
  by_contra hword
  apply hx (hstart hword)

/-- Other code points than those of words and quotes are tokens by themselves. -/
theorem Token.spelling_eq_singleton {x : Char} (hx : ¬isIdentifierStart x) (hquote : x ≠ '"')
    (h : token.spelling ++ rest = x :: rest') :
  token.spelling = [x] ∧ rest' = rest
  := by
  have hword := word?_eq_none hx h
  cases token with
  | word s isWord => cases hword
  | text s closed =>
      rw [spelling_text] at h
      exact absurd (List.cons_eq_cons.mp h).1.symm hquote
  | _ =>
      obtain ⟨rfl, hrest⟩ := List.cons_eq_cons.mp h
      exact ⟨rfl, hrest.symm⟩

/-- The literal at the beginning is the first token. -/
theorem exists_contents_iff {s : String} (h : Gap xs (token.spelling ++ rest)) :
  (∃ ys, Gap xs ('"' :: ys) ∧ Formula.Contents ys s.toList rest')
    ↔ token.text? = some s ∧ rest' = rest
  := by
  simp only [gap_cons_iff (x := '"') h (by decide)]
  constructor
  · rintro ⟨ys, hbegins, hcontents⟩
    have hword := Token.word?_eq_none (by decide) hbegins
    cases token with
    | word s' isWord => cases hword
    | text s' closed =>
        rw [Token.spelling_text] at hbegins
        obtain ⟨-, rfl⟩ := List.cons_eq_cons.mp hbegins
        obtain ⟨hs, rfl⟩ := hcontents.unique (Formula.contents_escapeQuotes closed rest)
        obtain rfl := String.toList_injective hs
        exact ⟨rfl, rfl⟩
    | _ => exact absurd (List.cons_eq_cons.mp hbegins).1 (by decide)
  · rintro ⟨htext, rfl⟩
    cases token with
    | text s' closed =>
        obtain rfl := Option.some.inj htext
        exact ⟨_, Token.spelling_text s' closed rest',
          Formula.contents_escapeQuotes closed rest'⟩
    | _ => cases htext

/-! ### Reading a token -/

/-- The scan reads `φ token` of a token, whatever comes before and after it, and fails where there
is none. -/
structure ReadsToken {α : Type} (f : Scan α) (φ : Token → Option α) : Prop where
  nil : ∀ ⦃xs⦄, Gap xs [] → f.read xs = none
  cons : ∀ ⦃xs token rest⦄, Gap xs (token.spelling ++ rest) → token.Ends rest →
    f.read xs = (φ token).map fun a => (a, rest)

variable {α : Type} {f : Scan α} {φ : Token → Option α}

/-- It suffices to say which values are read. -/
theorem readsToken_of_eq_some (hnil : ∀ {xs a rest}, f.read xs = some (a, rest) → ¬Gap xs [])
    (hcons : ∀ {xs token rest}, Gap xs (token.spelling ++ rest) → token.Ends rest →
      ∀ {a rest'}, f.read xs = some (a, rest') ↔ φ token = some a ∧ rest' = rest) :
  ReadsToken f φ
  where
  nil xs h := by
    rw [Option.eq_none_iff_forall_ne_some]
    rintro ⟨a, rest⟩ hread
    apply hnil hread h
  cons xs token rest h hends := by
    ext ⟨a, rest'⟩
    rw [hcons h hends, Option.map_eq_some_iff]
    constructor
    · rintro ⟨ha, rfl⟩
      use a, ha
    · rintro ⟨b, hb, heq⟩
      obtain ⟨rfl, rfl⟩ := Prod.mk.inj heq
      exact ⟨hb, rfl⟩

/-- A scan of words reads a token that is a word. -/
theorem readsToken_identifier (ψ : String → Option α) :
  ReadsToken (Scan.identifier.filterMap ψ).spaced fun token => token.word?.bind ψ
  := by
  apply readsToken_of_eq_some
  · intro xs a rest hread
    obtain ⟨word, hword, -⟩ := Scan.spaced_filterMap_identifier_eq_some.mp hread
    apply hword.not_gap_nil
  · intro xs token rest h hends a rest'
    simp only [Scan.spaced_filterMap_identifier_eq_some, wordAt_iff h hends,
      Option.bind_eq_some_iff]
    constructor
    · rintro ⟨word, ⟨hword, hrest⟩, ha⟩
      exact ⟨⟨word, hword, ha⟩, hrest⟩
    · rintro ⟨⟨word, hword, ha⟩, hrest⟩
      exact ⟨word, ⟨hword, hrest⟩, ha⟩

/-- A scan of one code point reads the token that it is. -/
theorem readsToken_token {s : String} {x : Char} (hs : s.toList = [x]) (hspace : ¬isSpace x)
    (hx : ¬isIdentifierStart x) (hquote : x ≠ '"') :
  ReadsToken (Scan.token s) fun token => if token.spelling = [x] then some s else none
  := by
  apply readsToken_of_eq_some
  · intro xs a rest hread
    obtain ⟨-, hgap⟩ := (Scan.token_eq_some hs hspace).mp hread
    apply hgap.not_nil hspace
  · intro xs token rest h hends a rest'
    rw [Scan.token_eq_some hs hspace, gap_cons_iff h hspace, Option.ite_none_right_eq_some,
      Option.some.injEq]
    constructor
    · rintro ⟨rfl, hbegins⟩
      obtain ⟨hspelling, hrest⟩ := Token.spelling_eq_singleton hx hquote hbegins
      exact ⟨⟨hspelling, rfl⟩, hrest⟩
    · rintro ⟨⟨hspelling, rfl⟩, rfl⟩
      rw [hspelling]
      exact ⟨rfl, rfl⟩

/-- The scan of literals reads a token that is one. -/
theorem readsToken_text :
  ReadsToken Formula.textScan.spaced Token.text?
  := by
  apply readsToken_of_eq_some
  · intro xs s rest hread
    obtain ⟨ys, hgap, -⟩ := Formula.spaced_textScan_eq_some.mp hread
    apply hgap.not_nil (by decide)
  · intro xs token rest h hends s rest'
    rw [Formula.spaced_textScan_eq_some, exists_contents_iff h]

end Formulary
