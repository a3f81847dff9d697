import Formulary.Proofs.Parser.Consumption
import Formulary.Proofs.Tape.Supply

/-!
# What repetitions gather

`Matches p c tape values last tape'` says how a repetition of `p` goes: `p` matches again and again,
each time from where the match before has ended, until it fails or a match passes no code point.
Nothing bounds the number of matches but the text itself.

A well-behaved parser has matches from every cursor, at most one more than code points remain
(`WellBehaved.exists_matches`), and the loop behind all repetitions gathers exactly these, whatever
it makes of them (`Matches.foldLoop_eq`).
-/

namespace Formulary.Parser

open Tape

variable {α β : Type} {p : Parser α} {tape tape' : Tape} {text rest : List Char}
  {c last : Cursor} {values : List α}

/-! ### Matches -/

/-- The values of the matches of `p` in a row from the cursor `c` on, and the cursor after them.
Every match but the last passes a code point; after the last one `p` fails, or that one has passed
none. -/
inductive Matches (p : Parser α) : Cursor → Tape → List α → Cursor → Tape → Prop where
  | failed {c c' : Cursor} {tape tape' : Tape} (run : p.run c tape = (.failure c', tape')) :
      Matches p c tape [] c tape'
  | idle {c c' : Cursor} {tape tape' : Tape} {value : α}
      (run : p.run c tape = (.success value c', tape')) (still : ¬c.offset < c'.offset) :
      Matches p c tape [value] c' tape'
  | progress {c c' last : Cursor} {tape tape' tape'' : Tape} {value : α} {values : List α}
      (run : p.run c tape = (.success value c', tape')) (farther : c.offset < c'.offset)
      (later : Matches p c' tape' values last tape'') :
      Matches p c tape (value :: values) last tape''

/-- There are matches where the parser succeeds. -/
theorem Matches.ne_nil_iff (h : Matches p c tape values last tape') :
  values ≠ [] ↔ (p.run c tape).1.isSuccess
  := by
  cases h with
  | failed run => simp [run, Result.isSuccess]
  | idle run _ => simp [run, Result.isSuccess]
  | progress run _ _ => simp [run, Result.isSuccess]

theorem WellBehaved.moves_of_run {value : α} {c' : Cursor} (hp : WellBehaved p)
    (h : tape.Spells text) (hc : tape.Stands text c rest)
    (hrun : p.run c tape = (.success value c', tape')) :
  ∃ rest', Moves text tape c rest tape' c' rest'
  := by
  have hmoves := hp.moves h hc
  rw [hrun] at hmoves
  apply hmoves

/-- A match that passes a code point leaves less to match, so that the matches come to an end. -/
theorem WellBehaved.exists_matches (hp : WellBehaved p) (h : tape.Spells text)
    (hc : tape.Stands text c rest) :
  ∃ values last tape', Matches p c tape values last tape' ∧ values.length ≤ rest.length + 1
  := by
  induction hn : rest.length using Nat.strong_induction_on generalizing tape c rest with
  | h n ih =>
      rcases hrun : p.run c tape with ⟨⟨value, c'⟩ | c', tape'⟩
      · obtain ⟨rest', moves⟩ := hp.moves_of_run h hc hrun
        by_cases hlt : c.offset < c'.offset
        · have hrest := moves.offset_lt_iff.mp hlt
          rw [hn] at hrest
          obtain ⟨values, last, tape'', hmatches, hle⟩ :=
            ih rest'.length hrest moves.leads.spells moves.stands rfl
          refine ⟨value :: values, last, tape'', .progress hrun hlt hmatches, ?_⟩
          rw [List.length_cons]
          omega
        · exact ⟨[value], c', tape', .idle hrun hlt, by simp⟩
      · exact ⟨[], c, tape', .failed hrun, by simp⟩

/-! ### The loop -/

/-- The loop gathers all matches, however much more fuel it has than there are code points. -/
theorem Matches.foldLoop_eq (hp : WellBehaved p) (hmatches : Matches p c tape values last tape')
    (h : tape.Spells text) (hc : tape.Stands text c rest) {fuel : Nat} (hfuel : rest.length < fuel)
    (combine : β → α → β) (gathered : β) :
  foldLoop p combine fuel gathered c tape = (.success (values.foldl combine gathered) last, tape')
  := by
  induction hmatches generalizing rest fuel gathered with
  | failed run =>
      cases fuel with
      | zero => cases hfuel
      | succ fuel => simp only [foldLoop, run, List.foldl_nil]
  | idle run still =>
      cases fuel with
      | zero => cases hfuel
      | succ fuel => simp only [foldLoop, run, if_neg still, List.foldl_cons, List.foldl_nil]
  | progress run farther _ ih =>
      cases fuel with
      | zero => cases hfuel
      | succ fuel =>
          obtain ⟨rest', moves⟩ := hp.moves_of_run h hc run
          have hrest := moves.offset_lt_iff.mp farther
          simp only [foldLoop, run, if_pos farther, List.foldl_cons]
          apply ih moves.leads.spells moves.stands
          omega

theorem Matches.foldl_run (hp : WellBehaved p) (hmatches : Matches p c tape values last tape')
    (h : tape.Spells text) (hc : tape.Stands text c rest) (seed : β) (combine : β → α → β) :
  (p.foldl seed combine).run c tape = (.success (values.foldl combine seed) last, tape')
  := by
  apply hmatches.foldLoop_eq hp h hc
  apply Nat.lt_succ_of_le (Nat.le_trans hc.suffix.length_le h.within)

theorem Matches.many_run (hp : WellBehaved p) (hmatches : Matches p c tape values last tape')
    (h : tape.Spells text) (hc : tape.Stands text c rest) :
  p.many.run c tape = (.success values last, tape')
  := by
  have hfold := hmatches.foldl_run hp h hc [] fun values value => value :: values
  have hvalues : (values.foldl (fun values value => value :: values) []).reverse = values := by simp
  simp only [many, map, hfold, Result.map, hvalues]

theorem Matches.many1_run (hp : WellBehaved p) (hmatches : Matches p c tape values last tape')
    (h : tape.Spells text) (hc : tape.Stands text c rest) :
  p.many1.run c tape
    = (if (p.run c tape).1.isSuccess then .success values last else .failure c, tape')
  := by
  simp only [many1, hmatches.many_run hp h hc, ← hmatches.ne_nil_iff]
  cases values <;> rfl

/-- From any cursor a well-behaved parser has matches in a row, at most one more than code points
remain, and every repetition of it gathers these and ends after them: `many` as they are, `foldl`
combined from the left, and `many1` as they are unless there is none. -/
theorem repetition_gathers_matches (hp : WellBehaved p) (h : tape.Spells text)
    (hc : tape.Stands text c rest) :
  ∃ values last tape', Matches p c tape values last tape' ∧ values.length ≤ rest.length + 1
    ∧ p.many.run c tape = (.success values last, tape')
    ∧ (∀ {β : Type} (seed : β) (combine : β → α → β),
        (p.foldl seed combine).run c tape = (.success (values.foldl combine seed) last, tape'))
    ∧ p.many1.run c tape
        = (if (p.run c tape).1.isSuccess then .success values last else .failure c, tape')
  := by
  obtain ⟨values, last, tape', hmatches, hle⟩ := hp.exists_matches h hc
  exact ⟨values, last, tape', hmatches, hle, hmatches.many_run hp h hc,
    hmatches.foldl_run hp h hc, hmatches.many1_run hp h hc⟩

/-- At the end of a text an optional code point is matched once more, by nothing. -/
theorem repetition_gathers_matches_optional :
  let start := ofSupply (.codePoints "aa".toList)
  let p := (codePoint 'a').optional
  ∃ last tape', Matches p start.1 start.2 [some 'a', some 'a', none] last tape'
    ∧ (p.foldl 0 fun n _ => n + 1).run start.1 start.2 = (.success 3 last, tape')
  := by
  intro start p
  have hp : WellBehaved p := (denotes_codePoint 'a').optional.wellBehaved
  obtain ⟨h, hc⟩ := ofSupply_spells (Supply.gives_codePoints "aa".toList)
  obtain ⟨values, last, tape', hmatches, -, hmany, hfoldl, -⟩ := repetition_gathers_matches hp h hc
  have hvalue : (p.many.run start.1 start.2).1.value? = some [some 'a', some 'a', none] := by
    decide +kernel
  obtain rfl : values = [some 'a', some 'a', none] := by
    rw [hmany] at hvalue
    apply Option.some.inj hvalue
  exact ⟨last, tape', hmatches, hfoldl 0 fun n _ => n + 1⟩

end Formulary.Parser
