import Formulary.Parser.Fix
import Formulary.Parser.Primitive
import Formulary.Proofs.Parser.Laws
import Formulary.Proofs.Parser.Scan
import Formulary.Proofs.Tape.Spelling

/-!
# What parsers denote

A parser *denotes* a scan when, from every cursor on every tape, it reads the value and leaves the
rest that the scan does on what remains at the cursor.  It then makes no difference to the parser
where on the tape the cursor stands, whether the tape is a text or a stream, and how much of a
stream was known before.  A parser that denotes a scan gives back its cursor where it fails, and
otherwise moves the cursor over what it has read.

Each way to compose parsers denotes the same way to compose scans, and each parser of code points
the scan of the same kind.
-/

namespace Formulary.Parser

open Tape

variable {α β : Type} {tape : Tape} {text rest : List Char} {c : Cursor}

/-- The outcome of a parser, run from the cursor `c` before `rest`, is what was expected: a failure
at the cursor, or a value with the cursor moved. -/
inductive Reads (text : List Char) (tape : Tape) (c : Cursor) (rest : List Char) :
    Option (α × List Char) → Result α × Tape → Prop where
  | failure {tape' : Tape} (leads : Leads text tape tape') :
      Reads text tape c rest none (.failure c, tape')
  | success {a : α} {rest' : List Char} {c' : Cursor} {tape' : Tape}
      (moves : Moves text tape c rest tape' c' rest') :
      Reads text tape c rest (some (a, rest')) (.success a c', tape')

/-- An outcome is what was expected in one way only. -/
theorem Reads.unique {found found' : Option (α × List Char)} {outcome : Result α × Tape}
    (h : Reads text tape c rest found outcome) (h' : Reads text tape c rest found' outcome) :
  found = found'
  := by
  cases h with
  | failure =>
      cases h' with
      | failure => rfl
  | success moves =>
      cases h' with
      | success moves' =>
          have hrest := rest_eq moves.leads.spells moves.stands
          rw [rest_eq moves'.leads.spells moves'.stands] at hrest
          rw [String.ofList_injective hrest]

/-! ### Runs of composed parsers -/

section

variable {p q : Parser α} {found found' : Option (α × List Char)} {outcome : Result α × Tape}
  {tape' : Tape} {c' : Cursor}

theorem Reads.leads (h : Reads text tape c rest found outcome) :
  Leads text tape outcome.2
  := by
  cases h with
  | failure leads => exact leads
  | success moves => exact moves.leads

/-- What is read on a later tape is read from the earlier one on. -/
theorem Reads.of_leads (h : Leads text tape tape') (h' : Reads text tape' c rest found outcome) :
  Reads text tape c rest found outcome
  := by
  cases h' with
  | failure leads => apply Reads.failure (h.trans leads)
  | success moves => apply Reads.success (moves.of_leads h)

theorem Reads.map (φ : α → β) (h : Reads text tape c rest found (p.run c tape)) :
  Reads text tape c rest (found.map fun (a, rest) => (φ a, rest)) ((p.map φ).run c tape)
  := by
  have hrun : (p.map φ).run c tape = ((p.run c tape).1.map φ, (p.run c tape).2) := rfl
  rw [hrun]
  generalize p.run c tape = outcome at h ⊢
  cases h with
  | failure leads => apply Reads.failure leads
  | success moves => apply Reads.success moves

theorem Reads.orElse (h : Reads text tape c rest found (p.run c tape))
    (h' : Reads text (p.run c tape).2 c rest found' (q.run c (p.run c tape).2)) :
  Reads text tape c rest (found.or found') ((p.orElse q).run c tape)
  := by
  simp only [Parser.orElse]
  generalize p.run c tape = outcome at h h' ⊢
  cases h with
  | failure leads => apply h'.of_leads leads
  | success moves => apply Reads.success moves

theorem Reads.bind_failure {next : α → Parser β} (hrun : p.run c tape = (.failure c', tape'))
    (leads : Leads text tape tape') :
  Reads text tape c rest none ((p.bind next).run c tape)
  := by
  simp only [Parser.bind, hrun]
  apply Reads.failure leads

theorem Reads.bind_success {next : α → Parser β} {a : α} {rest' : List Char}
    {found : Option (β × List Char)} (hrun : p.run c tape = (.success a c', tape'))
    (moves : Moves text tape c rest tape' c' rest')
    (h : Reads text tape' c' rest' found ((next a).run c' tape')) :
  Reads text tape c rest found ((p.bind next).run c tape)
  := by
  simp only [Parser.bind, hrun]
  generalize (next a).run c' tape' = outcome at h ⊢
  cases h with
  | failure leads => apply Reads.failure (moves.leads.trans leads)
  | success moves' => apply Reads.success (moves.trans moves')

/-- What is reported leaves what is read as it is. -/
theorem Reads.reporting (event : α → Option Event)
    (h : Reads text tape c rest found (p.run c tape)) :
  Reads text tape c rest found ((p.reporting event).run c tape)
  := by
  simp only [Parser.reporting]
  generalize p.run c tape = outcome at h ⊢
  cases h with
  | failure leads => apply Reads.failure leads
  | @success a _ _ tape' moves =>
      simp only
      cases event a with
      | none => apply Reads.success moves
      | some e =>
          obtain ⟨⟨⟨source, within⟩, reached_le⟩, stands, suffix, offset⟩ := moves
          exact .success ⟨⟨⟨source, within⟩, reached_le⟩, stands, suffix, offset⟩

end

/-! ### Parsers and scans -/

/-- The parser reads what the scan reads, from every cursor on every tape. -/
def Denotes (p : Parser α) (f : Scan α) : Prop :=
  ∀ ⦃tape : Tape⦄ ⦃text : List Char⦄ ⦃c : Cursor⦄ ⦃rest : List Char⦄,
    tape.Spells text → tape.Stands text c rest →
      Reads text tape c rest (f.read rest) (p.run c tape)

theorem denotes_succeed (a : α) :
  Denotes (succeed a) (.succeed a)
  := fun _ _ _ _ h hc => .success (Moves.refl h hc)

theorem Denotes.fail :
  Denotes (fail : Parser α) Scan.fail
  := fun _ _ _ _ h _ => .failure h.leads

theorem Denotes.bind {p : Parser α} {next : α → Parser β} {f : Scan α} {g : α → Scan β}
    (hp : Denotes p f) (hnext : ∀ a, Denotes (next a) (g a)) :
  Denotes (p.bind next) (f.bind g)
  := by
  intro tape text c rest h hc
  have hread := hp h hc
  simp only [Scan.bind]
  generalize hrun : p.run c tape = outcome, f.read rest = expected at hread ⊢
  cases hread with
  | failure leads => apply Reads.bind_failure hrun leads
  | @success a _ _ _ moves =>
      apply Reads.bind_success hrun moves (hnext a moves.leads.spells moves.stands)

theorem Denotes.orElse {p q : Parser α} {f g : Scan α} (hp : Denotes p f) (hq : Denotes q g) :
  Denotes (p.orElse q) (f.orElse g)
  := by
  intro tape text c rest h hc
  have hread := hp h hc
  apply hread.orElse (hq hread.leads.spells (hc.mono hread.leads))

theorem Denotes.map {p : Parser α} {f : Scan α} (φ : α → β) (hp : Denotes p f) :
  Denotes (p.map φ) (f.map φ)
  := by
  intro tape text c rest h hc
  rw [Scan.map_read]
  apply (hp h hc).map

theorem Denotes.both {p : Parser α} {q : Parser β} {f : Scan α} {g : Scan β}
    (hp : Denotes p f) (hq : Denotes q g) :
  Denotes (p.both q) (f.both g)
  := by
  rw [both_eq_bind]
  apply hp.bind
  intro a
  apply hq.map

theorem Denotes.filterMap {p : Parser α} {f : Scan α} (φ : α → Option β) (hp : Denotes p f) :
  Denotes (p.filterMap φ) (f.filterMap φ)
  := by
  rw [filterMap_eq_bind]
  apply hp.bind
  intro a
  cases φ a with
  | none => apply Denotes.fail
  | some b => apply denotes_succeed

theorem Denotes.fst {p : Parser (α × β)} {f : Scan (α × β)} (hp : Denotes p f) :
  Denotes p.fst (f.map Prod.fst)
  := hp.map Prod.fst

theorem Denotes.snd {p : Parser (α × β)} {f : Scan (α × β)} (hp : Denotes p f) :
  Denotes p.snd (f.map Prod.snd)
  := hp.map Prod.snd

theorem Denotes.optional {p : Parser α} {f : Scan α} (hp : Denotes p f) :
  Denotes p.optional f.optional
  := by
  rw [optional_eq_orElse]
  apply (hp.map some).orElse (denotes_succeed none)

theorem Denotes.reporting {p : Parser α} {f : Scan α} (event : α → Option Event)
    (hp : Denotes p f) :
  Denotes (p.reporting event) f
  := by
  intro tape text c rest h hc
  apply (hp h hc).reporting

/-! ### Leaves -/

theorem denotes_codePoint (x : Char) :
  Denotes (codePoint x) (.point x)
  := by
  intro tape text c rest h hc
  simp only [codePoint]
  rw [peek?_eq_head? h hc]
  cases rest with
  | nil => apply Reads.failure h.leads
  | cons y ys =>
      simp only [List.head?_cons, Scan.point, Scan.one, decide_eq_true_eq]
      split_ifs with hy
      · subst hy
        apply Reads.success (advance_moves h hc)
      · apply Reads.failure h.leads

theorem denotes_codePointNot (excluded : List Char) :
  Denotes (codePointNot excluded) (.one (· ∉ excluded))
  := by
  intro tape text c rest h hc
  simp only [codePointNot]
  rw [peek?_eq_head? h hc]
  cases rest with
  | nil => apply Reads.failure h.leads
  | cons y ys =>
      simp only [List.head?_cons, Scan.one, decide_eq_true_eq, ite_not]
      split_ifs with hy
      · apply Reads.failure h.leads
      · apply Reads.success (advance_moves h hc)

/-- Code points are passed one by one as long as they are those that remain. -/
theorem passAll_moves (xs : List Char) (h : tape.Spells text) (hc : tape.Stands text c rest) :
  Leads text tape (passAll xs c tape).2
    ∧ match (passAll xs c tape).1 with
      | none => ¬xs <+: rest
      | some c' => xs <+: rest
          ∧ Moves text tape c rest (passAll xs c tape).2 c' (rest.drop xs.length)
  := by
  induction xs generalizing tape c rest with
  | nil => exact ⟨h.leads, List.nil_prefix, Moves.refl h hc⟩
  | cons x xs ih =>
      rw [passAll, peek?_eq_head? h hc]
      cases rest with
      | nil => exact ⟨h.leads, by simp⟩
      | cons y ys =>
          simp only [List.head?_cons]
          split_ifs with hy
          · subst hy
            have hstep := advance_moves h hc
            obtain ⟨hleads, houtcome⟩ := ih hstep.leads.spells hstep.stands
            use hstep.leads.trans hleads
            generalize passAll xs _ _ = outcome at houtcome ⊢
            obtain ⟨c', tape'⟩ := outcome
            cases c' with
            | none => simpa [List.cons_prefix_cons] using houtcome
            | some c' =>
                obtain ⟨hpre, hmoves⟩ := houtcome
                exact ⟨by simpa [List.cons_prefix_cons] using hpre, hstep.trans hmoves⟩
          · use h.leads
            simp [List.cons_prefix_cons, Ne.symm hy]

theorem denotes_codePoints (xs : List Char) :
  Denotes (codePoints xs) (.literal xs)
  := by
  intro tape text c rest h hc
  obtain ⟨hleads, houtcome⟩ := passAll_moves xs h hc
  simp only [codePoints, Scan.literal]
  generalize passAll xs c tape = outcome at hleads houtcome ⊢
  obtain ⟨c', tape'⟩ := outcome
  cases c' with
  | none =>
      rw [if_neg houtcome]
      apply Reads.failure hleads
  | some c' =>
      rw [if_pos houtcome.1]
      apply Reads.success houtcome.2

theorem denotes_string (s : String) :
  Denotes (string s) ((Scan.literal s.toList).map String.ofList)
  := (denotes_codePoints s.toList).map String.ofList

theorem denotes_several (first later : Char → Bool) :
  Denotes (several first later) (.several first later)
  := by
  intro tape text c rest h hc
  simp only [several]
  rw [peek?_eq_head? h hc]
  cases rest with
  | nil => apply Reads.failure h.leads
  | cons x xs =>
      simp only [List.head?_cons, Scan.several]
      split_ifs with hx
      · have hstep := advance_moves h hc
        obtain ⟨hvalue, hmoves⟩ := passWhile_moves later x.toString hstep.leads.spells hstep.stands
        have hpassed : x.toString ++ String.ofList (xs.takeWhile later)
            = String.ofList (x :: xs.takeWhile later) := by
          apply String.toList_injective
          simp
        rw [hvalue, hpassed]
        apply Reads.success (hstep.trans hmoves)
      · apply Reads.failure h.leads

/-! ### Repetition -/

/-- Enough fuel repeats a parser as often as its scan is repeated. -/
theorem foldLoop_reads {p : Parser α} {f : Scan α} (hp : Denotes p f) (combine : β → α → β)
    {fuel : Nat} (hfuel : rest.length < fuel) (gathered : β) (h : tape.Spells text)
    (hc : tape.Stands text c rest) :
  Reads text tape c rest (some (f.gather combine gathered rest))
    (foldLoop p combine fuel gathered c tape)
  := by
  induction fuel generalizing gathered tape c rest with
  | zero => cases hfuel
  | succ fuel ih =>
      have hread := hp h hc
      rw [foldLoop, Scan.gather]
      generalize p.run c tape = outcome, f.read rest = expected at hread ⊢
      cases hread with
      | failure leads =>
          apply Reads.success (leads.moves hc)
      | @success a rest' c' tape' moves =>
          simp only [moves.offset_lt_iff]
          split_ifs with hlt
          · have hread' := ih (Nat.lt_of_lt_of_le hlt (Nat.le_of_lt_succ hfuel))
              (combine gathered a) moves.leads.spells moves.stands
            generalize foldLoop _ _ _ _ _ _ = outcome', Scan.gather _ _ _ _ = expected'
              at hread' ⊢
            cases hread' with
            | success moves' => apply Reads.success (moves.trans moves')
          · apply Reads.success moves

theorem Denotes.foldl {p : Parser α} {f : Scan α} (seed : β) (combine : β → α → β)
    (hp : Denotes p f) :
  Denotes (p.foldl seed combine) (f.foldl seed combine)
  := by
  intro tape text c rest h hc
  apply foldLoop_reads hp combine _ seed h hc
  apply Nat.lt_succ_of_le (Nat.le_trans hc.suffix.length_le h.within)

theorem Denotes.many {p : Parser α} {f : Scan α} (hp : Denotes p f) :
  Denotes p.many f.many
  := (hp.foldl _ _).map _

/-! ### Fixed points -/

theorem Denotes.approximate {build : Parser α → Parser α} {F : Scan α → Scan α}
    (hbuild : ∀ {p f}, Denotes p f → Denotes (build p) (F f)) (depth : Nat) :
  Denotes (approximate build depth) (Scan.approximate F depth)
  := by
  induction depth with
  | zero => apply Denotes.fail
  | succ depth ih => apply hbuild ih

/-- A parser that refers to itself denotes the scan that does so, where the scan passes a code point
first: the capacity of a tape is then depth enough. -/
theorem Denotes.fix {build : Parser α → Parser α} {F : Scan α → Scan α}
    (hbuild : ∀ {p f}, Denotes p f → Denotes (build p) (F f)) (hF : Scan.Guarded F) :
  Denotes (fix build) (.fix F)
  := by
  intro tape text c rest h hc
  have hread := Denotes.approximate hbuild (tape.capacity + 1) h hc
  have hlt : rest.length < tape.capacity + 1 :=
    Nat.lt_succ_of_le (Nat.le_trans hc.suffix.length_le h.within)
  rw [Scan.approximate_agree_fix hF _ rest hlt] at hread
  apply hread

/-! ### Reading texts -/

/-- What a parser reads of a text: a value and the rest of the text. -/
def onText (p : Parser α) (text : String) : Option (α × String) :=
  let (start, tape) := ofText text
  match p.run start tape with
  | (.success value c, tape) => some (value, (tape.rest c).1)
  | (.failure _, _) => none

/-- Of a text a parser reads what its scan reads of the code points. -/
theorem Denotes.onText_eq {p : Parser α} {f : Scan α} (hp : Denotes p f) (text : String) :
  p.onText text = (f.read text.toList).map fun (value, rest) => (value, String.ofList rest)
  := by
  have hread := hp (ofText_spells text) (ofText_stands text)
  simp only [onText]
  generalize p.run _ _ = outcome, f.read _ = expected at hread ⊢
  cases hread with
  | failure leads => rfl
  | success moves =>
      simp only [Option.map_some]
      rw [rest_eq moves.leads.spells moves.stands]

end Formulary.Parser
