import Formulary.Proofs.Parser.Composition
import Formulary.Proofs.Parser.Denotation

/-!
# What parsers consume

A parser is *well-behaved* when from every cursor it either fails and gives that cursor back, or
succeeds with the cursor advanced over some number of code points, which the offset counts and which
are what the rest at the cursor begins with.  The tape may have reached farther meanwhile, but it
spells the same text.

To be well-behaved is admissible: the leaves are, the ways to compose parsers keep it, and so does
self reference (`admissible_wellBehaved`).  Hence all rules of both grammars are well-behaved
(`consumption_discipline`).
-/

namespace Formulary

namespace Tape

variable {tape tape' : Tape} {text rest : List Char} {c c' : Cursor} {consumed : List Char}

/-! ### Advancing over code points -/

/-- The cursor advanced `k` times. -/
def advances (tape : Tape) : Nat → Cursor → Cursor × Tape
  | 0, c => (c, tape)
  | k + 1, c =>
    let (c, tape) := tape.advance c
    tape.advances k c

/-- Advancing as often as there are code points in `consumed` drops these. -/
theorem advances_moves (h : tape.Spells text) (hc : tape.Stands text c (consumed ++ rest)) :
  Moves text tape c (consumed ++ rest) (tape.advances consumed.length c).2
    (tape.advances consumed.length c).1 rest
  := by
  induction consumed generalizing tape c with
  | nil => apply Moves.refl h hc
  | cons x xs ih =>
      have hstep := advance_moves h hc
      apply hstep.trans (ih hstep.leads.spells hstep.stands)

/-- From the cursor `c` of a tape to the cursor `c'` of a later one: `c` advanced over the code
points `consumed`, which the offset counts, and before which `c'` finds the rest. -/
structure Consumes (tape : Tape) (c : Cursor) (consumed : List Char) (tape' : Tape) (c' : Cursor) :
    Prop where
  cursor : (tape.advances consumed.length c).1 = c'
  offset : c'.offset = c.offset + consumed.length
  rest : (tape.rest c).1 = String.ofList consumed ++ (tape'.rest c').1

theorem rest_eq_empty (h : tape.peek? c = none) :
  (tape.rest c).1 = ""
  := by
  unfold Tape.rest passWhile
  cases tape.capacity with
  | zero => rfl
  | succ fuel => rw [passLoop, h]

/-- Where a cursor that was advanced has something before it, the tape has reached it. -/
theorem Consumes.moves (h : tape.Spells text) (hc : tape.Stands text c rest)
    (hleads : Leads text tape tape') (hconsumes : Consumes tape c consumed tape' c') :
  Moves text tape c rest tape' c' (rest.drop consumed.length)
  := by
  obtain ⟨hcursor, hoffset, hrest⟩ := hconsumes
  rw [rest_eq h hc] at hrest
  obtain ⟨after, rfl⟩ : ∃ after, rest = consumed ++ after := by
    use (tape'.rest c').1.toList
    simpa using congrArg String.toList hrest
  obtain ⟨hleads', hstands, hsuffix, -⟩ := advances_moves h hc
  rw [hcursor] at hstands
  rw [List.drop_left]
  refine ⟨hleads, ?_, hsuffix, by simp only [List.length_append]; omega⟩
  unfold Stands at hstands ⊢
  cases hp : c'.position with
  | none =>
      rw [hp] at hstands
      apply hstands
  | some i =>
      rw [hp] at hstands
      refine ⟨?_, hstands.2⟩
      by_contra hi
      have hpeek : tape'.peek? c' = none := by
        unfold peek?
        rw [hp]
        apply codePointAt?_of_le (Nat.le_of_not_lt hi)
      have hafter : after = [] := by
        rw [rest_eq_empty hpeek] at hrest
        simpa using congrArg String.toList hrest
      have hle := hleads'.spells.reached_le
      rw [hafter] at hstands
      have := List.drop_eq_nil_iff.mp hstands.2.symm
      omega

/-- A cursor that was moved has consumed what stood before the rest. -/
theorem Moves.consumes {rest' : List Char} (h : tape.Spells text)
    (hc : tape.Stands text c (consumed ++ rest'))
    (hmoves : Moves text tape c (consumed ++ rest') tape' c' rest') :
  Consumes tape c consumed tape' c'
  := by
  have hadvances := advances_moves h hc
  have hoffset := hmoves.offset
  have hoffset' := hadvances.offset
  constructor
  · apply hadvances.stands.cursor_eq hadvances.leads.spells hmoves.leads.spells hmoves.stands
    omega
  · simp only [List.length_append] at hoffset
    omega
  · rw [rest_eq h hc, rest_eq hmoves.leads.spells hmoves.stands, String.ofList_append]

theorem Moves.exists_consumes {rest' : List Char} (h : tape.Spells text)
    (hc : tape.Stands text c rest) (hmoves : Moves text tape c rest tape' c' rest') :
  ∃ consumed, Consumes tape c consumed tape' c'
  := by
  obtain ⟨consumed, rfl⟩ := hmoves.suffix
  exact ⟨consumed, hmoves.consumes h hc⟩

end Tape

namespace Parser

open Tape

variable {α β : Type} {tape : Tape} {text rest : List Char} {c : Cursor}

/-! ### Well-behaved parsers -/

/-- The outcome of a parser, run from the cursor `c`: it fails at this cursor or has consumed what
it has advanced over. -/
def Accounts (tape : Tape) (c : Cursor) (outcome : Result α × Tape) : Prop :=
  match outcome.1 with
  | .failure remaining => remaining = c
  | .success _ remaining => ∃ consumed, Consumes tape c consumed outcome.2 remaining

/-- From every cursor of every tape the parser gives the cursor back or advances it over what it
consumes, and the tape still spells the same text. -/
def WellBehaved ⦃α : Type⦄ (p : Parser α) : Prop :=
  ∀ ⦃tape : Tape⦄ ⦃text : List Char⦄ ⦃c : Cursor⦄ ⦃rest : List Char⦄,
    tape.Spells text → tape.Stands text c rest →
      Leads text tape (p.run c tape).2 ∧ Accounts tape c (p.run c tape)

/-- A well-behaved parser reads something or nothing of what remains. -/
theorem wellBehaved_iff {p : Parser α} :
  WellBehaved p ↔ ∀ ⦃tape : Tape⦄ ⦃text : List Char⦄ ⦃c : Cursor⦄ ⦃rest : List Char⦄,
    tape.Spells text → tape.Stands text c rest →
      ∃ found, Reads text tape c rest found (p.run c tape)
  := by
  constructor
  · intro hp tape text c rest h hc
    obtain ⟨hleads, haccounts⟩ := hp h hc
    generalize p.run c tape = outcome at hleads haccounts ⊢
    obtain ⟨⟨a, c'⟩ | c', tape'⟩ := outcome
    · obtain ⟨consumed, hconsumes⟩ := haccounts
      use some (a, rest.drop consumed.length)
      apply Reads.success (hconsumes.moves h hc hleads)
    · obtain rfl : c' = c := haccounts
      use none
      apply Reads.failure hleads
  · intro hp tape text c rest h hc
    obtain ⟨found, hread⟩ := hp h hc
    generalize p.run c tape = outcome at hread ⊢
    cases hread with
    | failure leads => exact ⟨leads, rfl⟩
    | success moves => exact ⟨moves.leads, moves.exists_consumes h hc⟩

/-- Whatever a well-behaved parser comes to, it leaves a cursor before a part of what remained. -/
theorem WellBehaved.moves {p : Parser α} (hp : WellBehaved p) (h : tape.Spells text)
    (hc : tape.Stands text c rest) :
  ∃ rest', Moves text tape c rest (p.run c tape).2 (p.run c tape).1.remaining rest'
  := by
  obtain ⟨found, hread⟩ := wellBehaved_iff.mp hp h hc
  generalize p.run c tape = outcome at hread ⊢
  cases hread with
  | failure leads => exact ⟨rest, leads.moves hc⟩
  | success moves => exact ⟨_, moves⟩

theorem Denotes.wellBehaved {p : Parser α} {f : Scan α} (hp : Denotes p f) :
  WellBehaved p
  := by
  apply wellBehaved_iff.mpr
  intro tape text c rest h hc
  use f.read rest
  apply hp h hc

/-! ### Ways to compose -/

theorem WellBehaved.map (φ : α → β) {p : Parser α} (hp : WellBehaved p) :
  WellBehaved (p.map φ)
  := by
  apply wellBehaved_iff.mpr
  intro tape text c rest h hc
  obtain ⟨found, hread⟩ := wellBehaved_iff.mp hp h hc
  exact ⟨_, hread.map φ⟩

theorem WellBehaved.orElse {p q : Parser α} (hp : WellBehaved p) (hq : WellBehaved q) :
  WellBehaved (p.orElse q)
  := by
  apply wellBehaved_iff.mpr
  intro tape text c rest h hc
  obtain ⟨found, hread⟩ := wellBehaved_iff.mp hp h hc
  obtain ⟨found', hread'⟩ := wellBehaved_iff.mp hq hread.leads.spells (hc.mono hread.leads)
  exact ⟨_, hread.orElse hread'⟩

theorem WellBehaved.bind {p : Parser α} {next : α → Parser β} (hp : WellBehaved p)
    (hnext : ∀ a, WellBehaved (next a)) :
  WellBehaved (p.bind next)
  := by
  apply wellBehaved_iff.mpr
  intro tape text c rest h hc
  obtain ⟨found, hread⟩ := wellBehaved_iff.mp hp h hc
  generalize hrun : p.run c tape = outcome at hread
  cases hread with
  | failure leads => exact ⟨none, .bind_failure hrun leads⟩
  | @success a _ _ _ moves =>
      obtain ⟨found', hread'⟩ := wellBehaved_iff.mp (hnext a) moves.leads.spells moves.stands
      exact ⟨found', .bind_success hrun moves hread'⟩

theorem foldLoop_accounts {p : Parser α} (hp : WellBehaved p) (combine : β → α → β) (fuel : Nat)
    (gathered : β) (h : tape.Spells text) (hc : tape.Stands text c rest) :
  ∃ found, Reads text tape c rest (some found) (foldLoop p combine fuel gathered c tape)
  := by
  induction fuel generalizing gathered tape c rest with
  | zero => exact ⟨_, .success (Moves.refl h hc)⟩
  | succ fuel ih =>
      obtain ⟨found, hread⟩ := wellBehaved_iff.mp hp h hc
      rw [foldLoop]
      generalize p.run c tape = outcome at hread ⊢
      cases hread with
      | failure leads =>
          exact ⟨_, .success (leads.moves hc)⟩
      | @success a _ _ _ moves =>
          simp only
          split_ifs
          · obtain ⟨found', hread'⟩ := ih (combine gathered a) moves.leads.spells moves.stands
            generalize foldLoop _ _ _ _ _ _ = outcome' at hread' ⊢
            use found'
            cases hread' with
            | success moves' => apply Reads.success (moves.trans moves')
          · exact ⟨_, .success moves⟩

theorem WellBehaved.foldl (seed : β) (combine : β → α → β) {p : Parser α} (hp : WellBehaved p) :
  WellBehaved (p.foldl seed combine)
  := by
  apply wellBehaved_iff.mpr
  intro tape text c rest h hc
  obtain ⟨found, hread⟩ := foldLoop_accounts hp combine (tape.capacity + 1) seed h hc
  use some found
  apply hread

theorem WellBehaved.reporting (event : α → Option Event) {p : Parser α} (hp : WellBehaved p) :
  WellBehaved (p.reporting event)
  := by
  apply wellBehaved_iff.mpr
  intro tape text c rest h hc
  obtain ⟨found, hread⟩ := wellBehaved_iff.mp hp h hc
  exact ⟨found, hread.reporting event⟩

theorem wellBehaved_fix {build : Parser α → Parser α}
    (hdepth : ∀ depth, WellBehaved (approximate build depth)) :
  WellBehaved (fix build)
  := by
  intro tape text c rest h hc
  apply hdepth (tape.capacity + 1) h hc

/-- The leaves are well-behaved, and the ways to compose parsers and self reference keep it so. -/
theorem admissible_wellBehaved :
  Admissible WellBehaved
  where
  succeed value := (denotes_succeed value).wellBehaved
  fail := @fun _ => Denotes.fail.wellBehaved
  codePoint x := (denotes_codePoint x).wellBehaved
  codePointNot excluded := (denotes_codePointNot excluded).wellBehaved
  codePoints xs := (denotes_codePoints xs).wellBehaved
  several first later := (denotes_several first later).wellBehaved
  map φ _ := .map φ
  orElse := .orElse
  bind := .bind
  foldl seed combine _ := .foldl seed combine
  reporting event _ := .reporting event
  fix := wellBehaved_fix

/-- What is composed of well-behaved parsers is well-behaved, and so is a parser that refers to
itself if it is when built over a well-behaved one.  In particular the parsers of texts, words and
tokens are, and the rules of both grammars. -/
theorem consumption_discipline :
  (∀ {α : Type} {p : Parser α}, Composed WellBehaved p → WellBehaved p)
    ∧ (∀ {α : Type} {build : Parser α → Parser α},
        (∀ {p : Parser α}, WellBehaved p → WellBehaved (build p)) → WellBehaved (fix build))
    ∧ (∀ {α : Type} {p : Parser α}, WellBehaved p → WellBehaved (spaced p))
    ∧ (∀ s, WellBehaved (string s) ∧ WellBehaved (token s) ∧ WellBehaved (keyword s))
    ∧ (WellBehaved identifier ∧ WellBehaved digits ∧ WellBehaved spaces)
    ∧ (WellBehaved Formula.ident ∧ WellBehaved Formula.text ∧ WellBehaved Formula.bool
        ∧ WellBehaved Formula.value ∧ WellBehaved Formula.atom ∧ WellBehaved Formula.equation
        ∧ WellBehaved Formula.negation ∧ WellBehaved Formula.conjunction
        ∧ WellBehaved Formula.disjunction ∧ WellBehaved Formula.formula)
    ∧ (WellBehaved Arithmetic.number ∧ WellBehaved Arithmetic.multiplicand
        ∧ WellBehaved Arithmetic.addend ∧ WellBehaved Arithmetic.expression)
  := by
  have hcomposed {α : Type} {p : Parser α} (hp : Composed WellBehaved p) : WellBehaved p :=
    admissible_wellBehaved.of_composed id hp
  have hformula : WellBehaved Formula.formula :=
    Formula.formula_of_admissible admissible_wellBehaved
  have hatom : Composed WellBehaved Formula.atom := Formula.composed_atomOf (.given hformula)
  have hequation : Composed WellBehaved Formula.equation := Formula.composed_equationOf hatom
  have hnegation : Composed WellBehaved Formula.negation := Formula.composed_negationOf hequation
  have hexpression : WellBehaved Arithmetic.expression :=
    Arithmetic.expression_of_admissible admissible_wellBehaved
  have hmultiplicand : Composed WellBehaved Arithmetic.multiplicand :=
    Arithmetic.composed_multiplicandOf (.given hexpression)
  refine ⟨hcomposed, fun hbuild => admissible_wellBehaved.fix_of_build hbuild,
    fun hp => hcomposed (Composed.given hp).spaced, ?_, ?_, ?_, ?_⟩
  · intro s
    exact ⟨hcomposed (composed_string s), hcomposed (composed_token s),
      hcomposed (composed_keyword s)⟩
  · exact ⟨hcomposed composed_identifier, hcomposed composed_digits, hcomposed composed_spaces⟩
  · exact ⟨hcomposed Formula.composed_ident, hcomposed Formula.composed_text,
      hcomposed Formula.composed_bool, hcomposed Formula.composed_value, hcomposed hatom,
      hcomposed hequation, hcomposed hnegation, hcomposed (Formula.composed_chainOf _ _ hnegation),
      hformula, hformula⟩
  · exact ⟨hcomposed Arithmetic.composed_number, hcomposed hmultiplicand,
      hcomposed (Arithmetic.composed_addendOf hmultiplicand), hexpression⟩

/-- Words with a number after them, and numbers in any number of parentheses, are read by
well-behaved parsers. -/
theorem consumption_discipline_nested :
  Composed WellBehaved (identifier.many1.both digits.optional)
    ∧ WellBehaved (identifier.many1.both digits.optional)
    ∧ WellBehaved (fix fun p => (((token "(").both p).both (token ")")).fst.snd.orElse digits)
  := by
  obtain ⟨hcomposed, hfix, -⟩ := consumption_discipline
  have hwords : Composed WellBehaved (identifier.many1.both digits.optional) :=
    composed_identifier.many1.both composed_digits.optional
  use hwords, hcomposed hwords
  apply hfix
  intro p hp
  have hgiven : Composed WellBehaved p := .given hp
  apply hcomposed (hgiven.parenthesised.orElse composed_digits)

end Parser

end Formulary
