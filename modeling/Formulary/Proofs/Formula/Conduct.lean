import Formulary.Proofs.Formula.Scanning
import Formulary.Proofs.Parser.Repetition
import Formulary.Proofs.Tape.Recording

/-!
# What parsers meet

A parser *meets* an identifier when it reads one, whether or not this comes to anything.  The log
tells no more than this: it goes on with the advices about the identifiers that were met, in order
(`Meets`).

A *conduct* relates what remains at a cursor to what a parser reads of it and to the identifiers it
meets on the way.  For each way to compose parsers a rule says what the composed parser *follows* if
its parts follow their conducts.  Most parsers are *silent*, which is to say that they give no
advice; these follow what they denote.  Only the parser of identifiers is not (`follows_ident`).
-/

namespace Formulary

/-! ### Advices -/

/-- The identifier and the keyword of an advice. -/
def Event.advice? : Event → Option (String × String)
  | .nearKeyword identifier keyword => some (identifier, keyword)
  | _ => none

/-- An advice is a warning. -/
theorem Event.level_of_advice? {event : Event} {advice : String × String}
    (h : event.advice? = some advice) :
  event.level = .warn
  := by
  apply level_eq_warn_iff.mpr
  cases event with
  | nearKeyword identifier keyword => exact .inl ⟨identifier, keyword, rfl⟩
  | _ => cases h

/-- The advices among the warnings in a log, each with an identifier and the keyword that it
resembles. -/
def advices (log : Log) : List (String × String) :=
  (log.toList.filter fun event => event.level = .warn).filterMap Event.advice?

theorem advices_push (log : Log) (event : Event) :
  advices (log.push event) = advices log ++ event.advice?.toList
  := by
  cases h : event.advice? with
  | none => by_cases hlevel : event.level = .warn <;> simp [advices, h, hlevel]
  | some advice => simp [advices, h, Event.level_of_advice? h]

namespace Formula

open Formulary.Parser Tape

variable {α β : Type} {tape tape' tape'' : Tape} {words words' : List String}

/-- What is advised about a word. -/
def advice? (word : String) : Option (String × String) := (nearKeyword? word).map fun k => (word, k)

/-- Between the two tapes the identifiers `words` were met, which are no keywords, and advices were
given about them. -/
structure Meets (tape tape' : Tape) (words : List String) : Prop where
  advices : advices tape'.log = advices tape.log ++ words.filterMap advice?
  free : ∀ word ∈ words, word ∉ keywords

theorem Meets.nil (h : Formulary.advices tape'.log = Formulary.advices tape.log) :
  Meets tape tape' []
  := ⟨by rw [h, List.filterMap_nil, List.append_nil], by simp⟩

theorem Meets.trans (h : Meets tape tape' words) (h' : Meets tape' tape'' words') :
  Meets tape tape'' (words ++ words')
  where
  advices := by rw [h'.advices, h.advices, List.filterMap_append, List.append_assoc]
  free word hword := by
    rcases List.mem_append.mp hword with hword | hword
    · apply h.free word hword
    · apply h'.free word hword

/-! ### Silent parsers -/

/-- The parser gives no advice. -/
def Silent (p : Parser α) : Prop := ∀ c tape, advices (p.run c tape).2.log = advices tape.log

theorem advices_after (tape : Tape) (i : Nat) :
  advices (tape.after i).2.log = advices tape.log
  := by
  obtain ⟨_ | s, capacity, log⟩ := tape
  · rfl
  · simp only [Tape.after]
    cases (s.after i).failure with
    | none => rfl
    | some reason =>
        apply (advices_push _ _).trans
        apply List.append_nil

theorem advices_advance (tape : Tape) (c : Cursor) :
  advices (tape.advance c).2.log = advices tape.log
  := by
  apply advance_induction (Q := fun later => advices later.log = advices tape.log) _ rfl
  intro later i hlater
  rw [advices_after, hlater]

theorem advices_passWhile (tape : Tape) (p : Char → Bool) (passed : String) (c : Cursor) :
  advices (tape.passWhile p passed c).2.2.log = advices tape.log
  := by
  apply passLoop_induction (Q := fun later => advices later.log = advices tape.log) _ rfl
  intro later i hlater
  rw [advices_after, hlater]

variable {p q : Parser α}

theorem silent_codePoint (x : Char) :
  Silent (codePoint x)
  := by
  intro c tape
  simp only [codePoint]
  split
  · rfl
  · split_ifs
    · apply advices_advance
    · rfl

theorem silent_codePointNot (excluded : List Char) :
  Silent (codePointNot excluded)
  := by
  intro c tape
  simp only [codePointNot]
  split
  · rfl
  · split_ifs
    · rfl
    · apply advices_advance

theorem silent_codePoints (xs : List Char) :
  Silent (codePoints xs)
  := by
  intro c tape
  have hpass (xs : List Char) (c : Cursor) (tape : Tape) :
      advices (passAll xs c tape).2.log = advices tape.log := by
    induction xs generalizing c tape with
    | nil => rfl
    | cons x xs ih =>
        rw [passAll]
        split
        · rfl
        · split_ifs
          · apply (ih _ _).trans (advices_advance tape c)
          · rfl
  rw [← hpass xs c tape]
  simp only [codePoints]
  rcases passAll xs c tape with ⟨_ | _, _⟩ <;> rfl

theorem silent_several (first later : Char → Bool) :
  Silent (several first later)
  := by
  intro c tape
  simp only [several]
  split
  · rfl
  · split_ifs
    · apply (advices_passWhile _ _ _ _).trans (advices_advance tape c)
    · rfl

theorem silent_succeed (a : α) :
  Silent (succeed a)
  := fun _ _ => rfl

theorem silent_fail :
  Silent (fail : Parser α)
  := fun _ _ => rfl

theorem Silent.map (φ : α → β) (hp : Silent p) :
  Silent (p.map φ)
  := fun c tape => hp c tape

theorem Silent.orElse (hp : Silent p) (hq : Silent q) :
  Silent (p.orElse q)
  := by
  intro c tape
  rw [← hp c tape]
  simp only [Parser.orElse]
  rcases p.run c tape with ⟨_ | _, tape'⟩
  · rfl
  · apply hq c tape'

theorem Silent.bind {next : α → Parser β} (hp : Silent p) (hnext : ∀ a, Silent (next a)) :
  Silent (p.bind next)
  := by
  intro c tape
  rw [← hp c tape]
  simp only [Parser.bind]
  rcases p.run c tape with ⟨⟨a, middle⟩ | _, tape'⟩
  · simp only
    rw [← hnext a middle tape']
    rcases (next a).run middle tape' with ⟨_ | _, _⟩ <;> rfl
  · rfl

theorem Silent.foldl (seed : β) (combine : β → α → β) (hp : Silent p) :
  Silent (p.foldl seed combine)
  := by
  intro c tape
  simp only [Parser.foldl]
  generalize tape.capacity + 1 = fuel
  induction fuel generalizing seed c tape with
  | zero => rfl
  | succ fuel ih =>
      rw [← hp c tape]
      simp only [foldLoop]
      rcases p.run c tape with ⟨_ | _, tape'⟩
      · simp only
        split_ifs
        · apply ih
        · rfl
      · rfl

theorem Silent.both {q : Parser β} (hp : Silent p) (hq : Silent q) :
  Silent (p.both q)
  := by
  rw [both_eq_bind]
  apply hp.bind
  intro a
  apply hq.map

theorem Silent.filterMap (φ : α → Option β) (hp : Silent p) :
  Silent (p.filterMap φ)
  := by
  rw [filterMap_eq_bind]
  apply hp.bind
  intro a
  cases φ a with
  | none => apply silent_fail
  | some b => apply silent_succeed

theorem Silent.optional (hp : Silent p) :
  Silent p.optional
  := by
  rw [optional_eq_orElse]
  apply (hp.map some).orElse (silent_succeed none)

theorem silent_spaces :
  Silent spaces
  := (silent_several _ _).optional.map _

theorem Silent.spaced (hp : Silent p) :
  Silent (spaced p)
  := (silent_spaces.both hp).map _

theorem silent_token (s : String) :
  Silent (token s)
  := ((silent_codePoints _).map _).spaced

theorem silent_keyword (word : String) :
  Silent (keyword word)
  := ((silent_several _ _).filterMap _).spaced

theorem silent_text :
  Silent text
  := by
  have hescaped := ((silent_codePoint '\\').both (silent_codePoint '"')).map Prod.snd
  have hcontents := (hescaped.orElse (silent_codePointNot ['"'])).foldl "" String.push
  apply ((((silent_codePoint '"').both hcontents).map _).both (silent_codePoint '"')).map

theorem silent_value :
  Silent value
  := by
  have hbool : Silent bool := ((silent_several _ _).filterMap _).spaced
  apply ((hbool.map _).orElse (silent_text.map _)).spaced

/-! ### Conducts -/

/-- What remains, what is read of it, and the identifiers that are met on the way. -/
abbrev Conduct (α : Type) := List Char → Option (α × List Char) → List String → Prop

/-- From any cursor on any tape the parser reads and meets what the conduct says. -/
def Follows (p : Parser α) (Q : Conduct α) : Prop :=
  ∀ ⦃tape : Tape⦄ ⦃text : List Char⦄ ⦃c : Cursor⦄ ⦃rest : List Char⦄,
    tape.Spells text → tape.Stands text c rest →
      ∃ found words, Reads text tape c rest found (p.run c tape)
        ∧ Meets tape (p.run c tape).2 words ∧ Q rest found words

namespace Conduct

/-- Reads as the scan does and meets nothing. -/
def silent (f : Scan α) : Conduct α := fun xs found words => f.read xs = found ∧ words = []

/-- As `Q` says, once the value is changed. -/
def on (φ : α → β) (Q : Conduct β) : Conduct α := fun xs found words =>
  Q xs (found.map fun (a, rest) => (φ a, rest)) words

/-- After something that meets nothing goes on as `Q` says; where this is absent, fails. -/
inductive after (passed : List Char → List Char → Prop) (Q : Conduct α) : Conduct α where
  | absent {xs : List Char} : after passed Q xs none []
  | present {xs ys : List Char} {found : Option (α × List Char)} {words : List String}
      (first : passed xs ys) (later : Q ys found words) : after passed Q xs found words

/-- As `Q` says, or nothing where this fails. -/
inductive optional (Q : Conduct α) : Conduct (Option α) where
  | absent {xs : List Char} {words : List String} (h : Q xs none words) :
      optional Q xs (some (none, xs)) words
  | present {xs rest : List Char} {a : α} {words : List String} (h : Q xs (some (a, rest)) words) :
      optional Q xs (some (some a, rest)) words

/-- As `Q` says again and again, until this fails or passes nothing. -/
inductive many (Q : Conduct α) : Conduct (List α) where
  | failed {xs : List Char} {words : List String} (h : Q xs none words) :
      many Q xs (some ([], xs)) words
  | idle {xs rest : List Char} {a : α} {words : List String} (h : Q xs (some (a, rest)) words) :
      many Q xs (some ([a], rest)) words
  | progress {xs ys rest : List Char} {a : α} {values : List α} {words words' : List String}
      (h : Q xs (some (a, ys)) words) (later : many Q ys (some (values, rest)) words') :
      many Q xs (some (a :: values, rest)) (words ++ words')

end Conduct

variable {P Q : Conduct α} {R S : Conduct β} {f : Scan α}

theorem Follows.wellBehaved (hp : Follows p Q) :
  WellBehaved p
  := by
  apply wellBehaved_iff.mpr
  intro tape text c rest h hc
  obtain ⟨found, words, hread, -⟩ := hp h hc
  use found

theorem Follows.mono (hp : Follows p P)
    (h : ∀ {xs found words}, P xs found words → Q xs found words) :
  Follows p Q
  := by
  intro tape text c rest hs hc
  obtain ⟨found, words, hread, hmeets, hfollows⟩ := hp hs hc
  exact ⟨found, words, hread, hmeets, h hfollows⟩

theorem Silent.follows (hp : Silent p) (hf : Denotes p f) :
  Follows p (.silent f)
  := by
  intro tape text c rest h hc
  exact ⟨f.read rest, [], hf h hc, .nil (hp c tape), rfl, rfl⟩

theorem Follows.map (φ : α → β) (hp : Follows p (R.on φ)) :
  Follows (p.map φ) R
  := by
  intro tape text c rest h hc
  obtain ⟨found, words, hread, hmeets, hfollows⟩ := hp h hc
  exact ⟨_, words, hread.map φ, hmeets, hfollows⟩

/-- The second parser is tried where the first one fails, which has then met nothing. -/
theorem Follows.orElse (hp : Follows p P) (hq : Follows q Q)
    (hsuccess : ∀ {xs found words}, P xs (some found) words → Q xs (some found) words)
    (hfailure : ∀ {xs words}, P xs none words → words = []) :
  Follows (p.orElse q) Q
  := by
  intro tape text c rest h hc
  obtain ⟨found, words, hread, hmeets, hfollows⟩ := hp h hc
  simp only [Parser.orElse]
  generalize p.run c tape = outcome at hread hmeets ⊢
  cases hread with
  | success moves => exact ⟨_, words, .success moves, hmeets, hsuccess hfollows⟩
  | failure leads =>
      obtain rfl := hfailure hfollows
      obtain ⟨found', words', hread', hmeets', hfollows'⟩ := hq leads.spells (hc.mono leads)
      exact ⟨found', words', hread'.of_leads leads, hmeets.trans hmeets', hfollows'⟩

theorem Follows.both {q : Parser β} {S : Conduct (α × β)} (hp : Follows p Q) (hq : Follows q R)
    (hfirst : ∀ {xs words}, Q xs none words → S xs none words)
    (hboth : ∀ {xs ys a found words words'}, Q xs (some (a, ys)) words → R ys found words' →
      S xs (found.map fun (b, rest) => ((a, b), rest)) (words ++ words')) :
  Follows (p.both q) S
  := by
  intro tape text c rest h hc
  obtain ⟨found, words, hread, hmeets, hfollows⟩ := hp h hc
  simp only [Parser.both]
  generalize p.run c tape = outcome at hread hmeets ⊢
  cases hread with
  | failure leads => exact ⟨none, words, .failure leads, hmeets, hfirst hfollows⟩
  | @success a _ middle tape' moves =>
      obtain ⟨found', words', hread', hmeets', hfollows'⟩ := hq moves.leads.spells moves.stands
      have hboth' := hboth hfollows hfollows'
      simp only
      generalize q.run middle tape' = outcome' at hread' hmeets' ⊢
      cases hread' with
      | failure leads =>
          exact ⟨_, _, .failure (moves.leads.trans leads), hmeets.trans hmeets', hboth'⟩
      | success moves' =>
          exact ⟨_, _, .success (moves.trans moves'), hmeets.trans hmeets', hboth'⟩

theorem Follows.optional (hp : Follows p Q) :
  Follows p.optional Q.optional
  := by
  intro tape text c rest h hc
  obtain ⟨found, words, hread, hmeets, hfollows⟩ := hp h hc
  simp only [Parser.optional]
  generalize p.run c tape = outcome at hread hmeets ⊢
  cases hread with
  | failure leads =>
      exact ⟨_, words, .success (leads.moves hc), hmeets, .absent hfollows⟩
  | success moves => exact ⟨_, words, .success moves, hmeets, .present hfollows⟩

/-- Of what a repetition matches, each match follows the conduct. -/
theorem Follows.many (hp : Follows p Q) :
  Follows p.many Q.many
  := by
  intro tape text c rest h hc
  obtain ⟨values, last, tape', hmatches, -⟩ := hp.wellBehaved.exists_matches h hc
  rw [hmatches.many_run hp.wellBehaved h hc]
  induction hmatches generalizing rest with
  | failed run =>
      obtain ⟨found, words, hread, hmeets, hfollows⟩ := hp h hc
      rw [run] at hread hmeets
      cases hread with
      | failure leads =>
          exact ⟨_, words, .success (leads.moves hc), hmeets, .failed hfollows⟩
  | idle run _ =>
      obtain ⟨found, words, hread, hmeets, hfollows⟩ := hp h hc
      rw [run] at hread hmeets
      cases hread with
      | success moves => exact ⟨_, words, .success moves, hmeets, .idle hfollows⟩
  | progress run _ _ ih =>
      obtain ⟨found, words, hread, hmeets, hfollows⟩ := hp h hc
      rw [run] at hread hmeets
      cases hread with
      | success moves =>
          obtain ⟨found', words', hread', hmeets', hfollows'⟩ := ih moves.leads.spells moves.stands
          cases hread' with
          | success moves' =>
              exact ⟨_, _, .success (moves.trans moves'), hmeets.trans hmeets',
                .progress hfollows hfollows'⟩

/-- What a grammar keeps to, whatever parser it is built over, the parser that refers to itself
follows. -/
theorem Follows.fix {build : Parser α → Parser α} (hfail : ∀ {xs}, Q xs none [])
    (hbuild : ∀ {p}, Follows p Q → Follows (build p) Q) :
  Follows (fix build) Q
  := by
  have hdepth (depth : Nat) : Follows (approximate build depth) Q := by
    induction depth with
    | zero =>
        apply (silent_fail.follows Denotes.fail).mono
        rintro xs _ _ ⟨rfl, rfl⟩
        apply hfail
    | succ depth ih => apply hbuild ih
  intro tape text c rest h hc
  apply hdepth (tape.capacity + 1) h hc

/-- The first parser meets nothing, whether it fails or reads something. -/
theorem Silent.both_follows {q : Parser β} {S : Conduct (α × β)} (hp : Silent p)
    (hf : Denotes p f) (hq : Follows q R) (habsent : ∀ {xs}, S xs none [])
    (hpresent : ∀ {xs ys a found words}, f.read xs = some (a, ys) → R ys found words →
      S xs (found.map fun (b, rest) => ((a, b), rest)) words) :
  Follows (p.both q) S
  := by
  apply (hp.follows hf).both hq
  · rintro xs _ ⟨-, rfl⟩
    apply habsent
  · rintro xs ys a found _ words ⟨hread, rfl⟩ hfollows
    apply hpresent hread hfollows

theorem Silent.snd_follows {q : Parser β} {passed : List Char → List Char → Prop}
    (hp : Silent p) (hf : Denotes p f) (hq : Follows q R)
    (hpassed : ∀ {xs ys a}, f.read xs = some (a, ys) → passed xs ys) :
  Follows (p.both q).snd (R.after passed)
  := by
  apply Follows.map
  apply hp.both_follows hf hq .absent
  intro xs ys a found words hread hfollows
  cases found <;> apply Conduct.after.present (hpassed hread) hfollows

/-! ### Identifiers -/

theorem advices_record (tape : Tape) (event : Event) :
  advices (tape.record event).log = advices tape.log ++ event.advice?.toList
  := advices_push tape.log event

/-- Spaces before a word make no difference to what is reported about it. -/
theorem spaced_reporting (event : α → Option Event) (p : Parser α) :
  spaced (p.reporting event) = (spaced p).reporting event
  := by
  apply ext_run
  intro c tape
  simp only [spaced, snd, map, Parser.both, reporting]
  rcases spaces.run c tape with ⟨⟨_, middle⟩ | _, tape'⟩
  · simp only
    rcases p.run middle tape' with ⟨⟨a, _⟩ | _, _⟩
    · cases h : event a <;> simp only [h, Result.map]
    · rfl
  · rfl

/-- The parser of identifiers meets what it reads. -/
theorem follows_ident :
  Follows ident fun xs found words =>
    identScan.read xs = found ∧ words = (found.map Prod.fst).toList
  := by
  intro tape text c rest h hc
  refine ⟨_, _, denotes_ident h hc, ?_, rfl, rfl⟩
  -- to read an identifier is silent until it is reported
  let φ (word : String) : Option String := if word ∈ keywords then none else some word
  have hsilent : Silent (spaced (identifier.filterMap φ)) :=
    ((silent_several _ _).filterMap φ).spaced
  have hdenotes : Denotes (spaced (identifier.filterMap φ)) identScan :=
    (denotes_identifier.filterMap φ).spaced
  have hread := hdenotes h hc
  have hadvices := hsilent c tape
  rw [ident, spaced_reporting, reporting]
  simp only
  generalize (spaced (identifier.filterMap φ)).run c tape = outcome,
    hfound : identScan.read rest = found at hread hadvices ⊢
  cases hread with
  | failure leads => apply Meets.nil hadvices
  | @success name _ _ _ moves =>
      obtain ⟨-, hfree⟩ := identScan_eq_some.mp hfound
      constructor
      · cases hnear : nearKeyword? name with
        | none => simp [hnear, advice?, hadvices]
        | some k => simp [hnear, advice?, hadvices, advices_record, Event.advice?]
      · simpa using hfree

end Formula

end Formulary
