import Formulary.Proofs.Arithmetic.Scanning
import Formulary.Proofs.Formula.Scanning
import Formulary.Proofs.Parser.Consumption
import Formulary.Proofs.Tape.Revisiting
import Formulary.Proofs.Tape.Supply
import Mathlib.Logic.Relation

/-!
# Texts and streams are interchangeable

A parser that is composed of the leaves and of the two grammars comes to the same on a text and on a
stream of the same code points.  On a stream it can be run again at any later time: it comes to the
same, and no code point is requested that was not requested before (`Composed.interchangeable`).

The first half holds since the parser denotes a scan, and a scan knows only code points.  The second
half is a property of what parsers do, which is admissible (`admissible_replayable`): each of them
looks at a tape and advances cursors, and both can be repeated.
-/

namespace Formulary.Parser

open Tape

variable {α β : Type} {tape : Tape} {text rest : List Char} {c : Cursor}

/-! ### Running a parser again -/

/-- The parser is well-behaved, and to run it repeats: it does the same again, and without a
request. -/
structure Replayable ⦃α : Type⦄ (p : Parser α) : Prop where
  wellBehaved : WellBehaved p
  repeats : ∀ ⦃tape : Tape⦄ ⦃text : List Char⦄ ⦃c : Cursor⦄ ⦃rest : List Char⦄,
    tape.Spells text → tape.Stands text c rest → Repeats text (p.run c) tape

variable {p q : Parser α}

theorem replayable_succeed (value : α) :
  Replayable (succeed value)
  where
  wellBehaved := admissible_wellBehaved.succeed value
  repeats _ _ c _ h _ := Repeats.pure h (Result.success value c)

theorem replayable_fail :
  Replayable (fail : Parser α)
  where
  wellBehaved := admissible_wellBehaved.fail
  repeats _ _ c _ h _ := Repeats.pure h (Result.failure c)

theorem replayable_codePoint (x : Char) :
  Replayable (codePoint x)
  where
  wellBehaved := admissible_wellBehaved.codePoint x
  repeats tape text c rest h hc := by
    apply Repeats.look (· = x) (.failure c)
      (fun _ remaining tape => (.success x remaining, tape)) h hc
    · intro later hpeek
      simp only [codePoint, hpeek]
    · intro later y hpeek hy
      simp only [codePoint, hpeek, if_neg hy]
    · intro later y hpeek hy
      simp only [codePoint, hpeek, if_pos hy]
    · intro _ _ hc _
      apply Repeats.pure (advance_moves h hc).leads.spells

theorem replayable_codePointNot (excluded : List Char) :
  Replayable (codePointNot excluded)
  where
  wellBehaved := admissible_wellBehaved.codePointNot excluded
  repeats tape text c rest h hc := by
    apply Repeats.look (· ∉ excluded) (.failure c)
      (fun y remaining tape => (.success y remaining, tape)) h hc
    · intro later hpeek
      simp only [codePointNot, hpeek]
    · intro later y hpeek hy
      simp only [codePointNot, hpeek, if_pos (not_not.mp hy)]
    · intro later y hpeek hy
      simp only [codePointNot, hpeek, if_neg hy]
    · intro _ _ hc _
      apply Repeats.pure (advance_moves h hc).leads.spells

theorem passAll_repeats (xs : List Char) (h : tape.Spells text) (hc : tape.Stands text c rest) :
  Repeats text (passAll xs c) tape
  := by
  induction xs generalizing tape c rest with
  | nil => apply Repeats.pure h
  | cons x xs ih =>
      apply Repeats.look (· = x) none (fun _ => passAll xs) h hc
      · intro later hpeek
        simp only [passAll, hpeek]
      · intro later y hpeek hy
        simp only [passAll, hpeek, if_neg hy]
      · intro later y hpeek hy
        simp only [passAll, hpeek, if_pos hy]
      · intro _ _ hc _
        have hstep := advance_moves h hc
        apply ih hstep.leads.spells hstep.stands

theorem replayable_codePoints (xs : List Char) :
  Replayable (codePoints xs)
  where
  wellBehaved := admissible_wellBehaved.codePoints xs
  repeats tape text c rest h hc := by
    apply ((passAll_repeats xs h hc).map fun found =>
      found.elim (.failure c) (.success xs)).congr h
    intro later _
    simp only [codePoints]
    rcases passAll xs c later with ⟨_ | _, _⟩ <;> rfl

theorem replayable_several (first later : Char → Bool) :
  Replayable (several first later)
  where
  wellBehaved := admissible_wellBehaved.several first later
  repeats tape text c rest h hc := by
    apply Repeats.look (first ·) (.failure c) (fun x c tape =>
      let (found, tape) := passing later tape.capacity x.toString c tape
      (.success found.1 found.2, tape)) h hc
    · intro grown hpeek
      simp only [several, hpeek]
    · intro grown x hpeek hx
      simp only [several, hpeek, if_neg hx]
    · intro grown x hpeek hx
      simp only [several, hpeek, if_pos hx]
      rfl
    · intro x _ hc _
      have hstep := advance_moves h hc
      apply (passWhile_repeats later x.toString hstep.leads.spells hstep.stands).map fun found =>
        Result.success found.1 found.2

/-! ### Ways to compose -/

/-- What is done after a parser repeats if it does after its success and after its failure. -/
theorem Replayable.followed {γ : Type} {n f : Tape → γ × Tape} {s : α → Cursor → Tape → γ × Tape}
    (hp : Replayable p) (h : tape.Spells text) (hc : tape.Stands text c rest)
    (hsuccess : ∀ {later later' a c'}, p.run c later = (.success a c', later') →
      n later = s a c' later')
    (hfailure : ∀ {later later' c'}, p.run c later = (.failure c', later') → n later = f later')
    (hs : ∀ {a tape' c' rest'}, Moves text tape c rest tape' c' rest' → Repeats text (s a c') tape')
    (hf : ∀ {tape'}, Leads text tape tape' → Repeats text f tape') :
  Repeats text n tape
  := by
  obtain ⟨found, hread⟩ := wellBehaved_iff.mp hp.wellBehaved h hc
  generalize hrun : p.run c tape = outcome at hread
  cases hread with
  | @success a _ c' _ moves =>
      apply (hp.repeats h hc).andThen (k := s a c')
      · rw [hrun]
        apply hs moves
      · intro later hlater
        rw [hrun] at hlater
        have hagain : p.run c later = (.success a c', (p.run c later).2) := Prod.ext hlater rfl
        apply hsuccess hagain
  | failure leads =>
      apply (hp.repeats h hc).andThen (k := f)
      · rw [hrun]
        apply hf leads
      · intro later hlater
        rw [hrun] at hlater
        have hagain : p.run c later = (.failure c, (p.run c later).2) := Prod.ext hlater rfl
        apply hfailure hagain

theorem Replayable.map (φ : α → β) (hp : Replayable p) :
  Replayable (p.map φ)
  where
  wellBehaved := hp.wellBehaved.map φ
  repeats _ _ _ _ h hc := (hp.repeats h hc).map (Result.map φ)

theorem Replayable.orElse (hp : Replayable p) (hq : Replayable q) :
  Replayable (p.orElse q)
  where
  wellBehaved := hp.wellBehaved.orElse hq.wellBehaved
  repeats tape text c rest h hc := by
    apply hp.followed (s := fun a remaining tape => (.success a remaining, tape))
      (f := q.run c) h hc
    · intro _ _ _ _ hrun
      simp only [Parser.orElse, hrun]
    · intro _ _ _ hrun
      simp only [Parser.orElse, hrun]
    · intro _ _ _ _ moves
      apply Repeats.pure moves.leads.spells
    · intro _ leads
      apply hq.repeats leads.spells (hc.mono leads)

theorem Replayable.bind {next : α → Parser β} (hp : Replayable p)
    (hnext : ∀ a, Replayable (next a)) :
  Replayable (p.bind next)
  where
  wellBehaved := hp.wellBehaved.bind fun a => (hnext a).wellBehaved
  repeats tape text c rest h hc := by
    apply hp.followed (s := fun a middle tape =>
      (restore c ((next a).run middle tape).1, ((next a).run middle tape).2))
      (f := fun tape => (.failure c, tape)) h hc
    · intro _ later' a middle hrun
      simp only [Parser.bind, hrun]
      rcases (next a).run middle later' with ⟨_ | _, _⟩ <;> rfl
    · intro _ _ _ hrun
      simp only [Parser.bind, hrun]
    · intro a _ _ _ moves
      apply ((hnext a).repeats moves.leads.spells moves.stands).map (restore c)
    · intro _ leads
      apply Repeats.pure leads.spells

theorem Replayable.reporting (event : α → Option Event) (hp : Replayable p) :
  Replayable (p.reporting event)
  where
  wellBehaved := hp.wellBehaved.reporting event
  repeats tape text c rest h hc := by
    apply hp.followed (s := fun a remaining tape =>
      (.success a remaining, (event a).elim tape tape.record))
      (f := fun tape => (.failure c, tape)) h hc
    · intro _ _ a _ hrun
      simp only [Parser.reporting, hrun]
      cases event a <;> rfl
    · intro _ _ _ hrun
      simp only [Parser.reporting, hrun]
    · intro a _ _ _ moves
      cases event a with
      | none => apply Repeats.pure moves.leads.spells
      | some e => apply Repeats.record moves.leads.spells
    · intro _ leads
      apply Repeats.pure leads.spells

theorem foldLoop_repeats (hp : Replayable p) (combine : β → α → β) (fuel : Nat) (gathered : β)
    (h : tape.Spells text) (hc : tape.Stands text c rest) :
  Repeats text (foldLoop p combine fuel gathered c) tape
  := by
  induction fuel generalizing gathered tape c rest with
  | zero => apply Repeats.pure h
  | succ fuel ih =>
      apply hp.followed (s := fun a remaining tape =>
        if c.offset < remaining.offset then
          foldLoop p combine fuel (combine gathered a) remaining tape
        else (.success (combine gathered a) remaining, tape))
        (f := fun tape => (.success gathered c, tape)) h hc
      · intro _ _ _ _ hrun
        simp only [foldLoop, hrun]
      · intro _ _ _ hrun
        simp only [foldLoop, hrun]
      · intro a _ _ _ moves
        split_ifs
        · apply ih (combine gathered a) moves.leads.spells moves.stands
        · apply Repeats.pure moves.leads.spells
      · intro _ leads
        apply Repeats.pure leads.spells

theorem Replayable.foldl (seed : β) (combine : β → α → β) (hp : Replayable p) :
  Replayable (p.foldl seed combine)
  where
  wellBehaved := hp.wellBehaved.foldl seed combine
  repeats tape text c rest h hc := by
    apply (foldLoop_repeats hp combine (tape.capacity + 1) seed h hc).congr h
    intro later hlater
    simp only [Parser.foldl, hlater.capacity]

theorem replayable_fix {build : Parser α → Parser α}
    (hdepth : ∀ depth, Replayable (approximate build depth)) :
  Replayable (fix build)
  where
  wellBehaved := wellBehaved_fix fun depth => (hdepth depth).wellBehaved
  repeats tape text c rest h hc := by
    apply ((hdepth (tape.capacity + 1)).repeats h hc).congr h
    intro later hlater
    simp only [fix, hlater.capacity]

/-- The leaves can be run again, and the ways to compose parsers and self reference keep it so. -/
theorem admissible_replayable :
  Admissible Replayable
  where
  succeed := replayable_succeed
  fail := @fun _ => replayable_fail
  codePoint := replayable_codePoint
  codePointNot := replayable_codePointNot
  codePoints := replayable_codePoints
  several := replayable_several
  map φ _ := .map φ
  orElse := .orElse
  bind := .bind
  foldl seed combine _ := .foldl seed combine
  reporting event _ := .reporting event
  fix := replayable_fix

/-! ### What composed parsers denote -/

/-- The parsers of the two grammars. -/
inductive Grammar : ∀ ⦃α : Type⦄, Parser α → Prop where
  | formula : Grammar Formula.formula
  | expression : Grammar Arithmetic.expression

/-- To denote a scan is closed. -/
theorem closed_denotes :
  Closed fun _ p => ∃ f, Denotes p f
  where
  succeed value := ⟨_, denotes_succeed value⟩
  fail := @fun _ => ⟨_, .fail⟩
  codePoint x := ⟨_, denotes_codePoint x⟩
  codePointNot excluded := ⟨_, denotes_codePointNot excluded⟩
  codePoints xs := ⟨_, denotes_codePoints xs⟩
  several first later := ⟨_, denotes_several first later⟩
  map φ _ := fun ⟨_, hp⟩ => ⟨_, hp.map φ⟩
  orElse := fun ⟨_, hp⟩ ⟨_, hq⟩ => ⟨_, hp.orElse hq⟩
  bind := by
    rintro _ _ p next ⟨f, hp⟩ hnext
    choose g hg using hnext
    use f.bind g
    apply hp.bind hg
  foldl seed combine _ := fun ⟨_, hp⟩ => ⟨_, hp.foldl seed combine⟩
  reporting event _ := fun ⟨_, hp⟩ => ⟨_, hp.reporting event⟩

theorem Composed.exists_denotes (hp : Composed Grammar p) :
  ∃ f, Denotes p f
  := by
  apply closed_denotes.of_composed _ hp
  intro α p hp
  cases hp with
  | formula => exact ⟨_, Formula.denotes_formula⟩
  | expression => exact ⟨_, Arithmetic.denotes_expression⟩

theorem Composed.replayable (hp : Composed Grammar p) :
  Replayable p
  := by
  apply admissible_replayable.of_composed _ hp
  intro α p hp
  cases hp with
  | formula => apply Formula.formula_of_admissible admissible_replayable
  | expression => apply Arithmetic.expression_of_admissible admissible_replayable

/-! ### Outcomes -/

/-- What a parser comes to from a cursor: its value, unless it fails, the offset after it, and the
rest of the tape. -/
def outcome (p : Parser α) (c : Cursor) (tape : Tape) : Option α × Nat × String :=
  let (result, tape) := p.run c tape
  (result.value?, result.remaining.offset, (tape.rest result.remaining).1)

/-- The outcome depends on what remains at the cursor and on its offset. -/
theorem Denotes.outcome_eq {f : Scan α} (hp : Denotes p f) (h : tape.Spells text)
    (hc : tape.Stands text c rest) :
  p.outcome c tape
    = match f.read rest with
      | none => (none, c.offset, String.ofList rest)
      | some (a, rest') => (some a, c.offset + (rest.length - rest'.length), String.ofList rest')
  := by
  have hread := hp h hc
  unfold outcome
  generalize p.run c tape = outcome, f.read rest = found at hread ⊢
  cases hread with
  | failure leads =>
      simp only [Result.value?, Result.remaining]
      rw [rest_eq leads.spells (hc.mono leads)]
  | success moves =>
      have hoffset := moves.offset
      have hle := moves.suffix.length_le
      simp only [Result.value?, Result.remaining, Prod.mk.injEq, true_and]
      rw [rest_eq moves.leads.spells moves.stands]
      exact ⟨by omega, rfl⟩

/-- A parser that is run again comes to the same, and makes no request. -/
theorem Replayable.again {tape' : Tape} (hp : Replayable p) (h : tape.Spells text)
    (hc : tape.Stands text c rest) (hgrows : Grows text (p.run c tape).2 tape') :
  (p.run c tape').1 = (p.run c tape).1 ∧ p.outcome c tape' = p.outcome c tape
    ∧ (p.run c tape').2.requests = tape'.requests
  := by
  obtain ⟨hresult, hsimilar⟩ := (hp.repeats h hc).again hgrows
  obtain ⟨rest', moves⟩ := hp.wellBehaved.moves h hc
  have hgrown := hgrows.similar hsimilar
  refine ⟨hresult, ?_, hsimilar.requests_eq⟩
  simp only [outcome]
  rw [hresult, rest_eq hgrown.spells (moves.stands.mono hgrown.toLeads),
    rest_eq moves.leads.spells moves.stands]

/-! ### Visits -/

/-- What may be done on a tape: a parser is run from a cursor that has been reached, or the rest at
the cursor is taken. -/
inductive Visit : Tape → Tape → Prop where
  | run {α : Type} {p : Parser α} {tape : Tape} {c : Cursor} (hp : Composed Grammar p)
      (hc : tape.HasReached c) : Visit tape (p.run c tape).2
  | rest {tape : Tape} {c : Cursor} (hc : tape.HasReached c) : Visit tape (tape.rest c).2

theorem Visit.grows {tape' : Tape} (hvisit : Visit tape tape') (h : tape.Spells text) :
  Grows text tape tape'
  := by
  cases hvisit with
  | run hp hc =>
      obtain ⟨rest, hstands⟩ := hc.exists_stands text
      apply (hp.replayable.repeats h hstands).grows
  | rest hc =>
      obtain ⟨rest, hstands⟩ := hc.exists_stands text
      apply (rest_repeats h hstands).grows

theorem grows_of_visits {tape' : Tape} (hvisits : Relation.ReflTransGen Visit tape tape')
    (h : tape.Spells text) :
  Grows text tape tape'
  := by
  induction hvisits with
  | refl => apply h.grows
  | tail _ hvisit ih => apply ih.trans (hvisit.grows ih.spells)

/-- A composed parser comes to the same on a stream and on a text of the same code points.  When it
is run again from a cursor of the stream, whatever was done there in between, it comes to the same
as before and makes no request for a code point. -/
theorem Composed.interchangeable (hp : Composed Grammar p) {supply : Supply} {text : String}
    (hsupply : supply.Gives text.toList) :
  p.outcome (ofSupply supply).1 (ofSupply supply).2 = p.outcome (ofText text).1 (ofText text).2
    ∧ ∀ {tape tape' : Tape} {c : Cursor}, Relation.ReflTransGen Visit (ofSupply supply).2 tape →
        tape.HasReached c → Relation.ReflTransGen Visit (p.run c tape).2 tape' →
          (p.run c tape').1 = (p.run c tape).1 ∧ p.outcome c tape' = p.outcome c tape
            ∧ (p.run c tape').2.requests = tape'.requests
  := by
  obtain ⟨hspells, hstands⟩ := ofSupply_spells hsupply
  constructor
  · obtain ⟨f, hf⟩ := hp.exists_denotes
    rw [hf.outcome_eq hspells hstands, hf.outcome_eq (ofText_spells text) (ofText_stands text)]
    rfl
  · intro tape tape' c hvisits hc hvisits'
    have h := (grows_of_visits hvisits hspells).spells
    obtain ⟨rest, hstands⟩ := hc.exists_stands text.toList
    have hrun := (hp.replayable.repeats h hstands).grows
    apply hp.replayable.again h hstands (grows_of_visits hvisits' hrun.spells)

/-- An expression is read from a stream as from a text, and once more after a formula was looked
for at the same place. -/
theorem interchangeable_expression :
  let start := ofSupply (.codePoints "1 - (2".toList)
  let first := Arithmetic.expression.run start.1 start.2
  let between := Formula.formula.run start.1 first.2
  Arithmetic.expression.outcome start.1 start.2
      = Arithmetic.expression.outcome (ofText "1 - (2").1 (ofText "1 - (2").2
    ∧ (Arithmetic.expression.run start.1 between.2).1 = first.1
    ∧ (Arithmetic.expression.run start.1 between.2).2.requests = between.2.requests
  := by
  have hexpression : Composed Grammar Arithmetic.expression := .given .expression
  have hformula : Composed Grammar Formula.formula := .given .formula
  have hsupply := Supply.gives_codePoints "1 - (2".toList
  obtain ⟨hspells, hstands⟩ := ofSupply_spells hsupply
  have hleads := (hexpression.replayable.repeats hspells hstands).grows.toLeads
  obtain ⟨houtcome, hagain⟩ := hexpression.interchangeable hsupply
  obtain ⟨hresult, -, hrequests⟩ := hagain .refl hstands.hasReached
    (.single (.run hformula (hstands.mono hleads).hasReached))
  exact ⟨houtcome, hresult, hrequests⟩

end Formulary.Parser
