import Formulary.Proofs.Parser.Consumption
import Formulary.Proofs.Parser.Words
import Formulary.Proofs.Tape.Supply
import Mathlib.Logic.Function.Iterate

/-!
# How deep grammars nest

A grammar that refers to itself enters itself again only *inside* parentheses: at a cursor right
after an opening parenthesis that stands in what remained where it was entered before.  What the
grammar does at a cursor is therefore settled by what it does inside (`Nests.agree`).

Hence entries within each other lie farther and farther on, and there is at most one more of them
than opening parentheses remain (`Nests.bounded`).  As many rounds of the grammar over any parser
whatever do what the grammar does that refers to itself (`Nests.iterate_run`), which therefore
satisfies its own equation (`Nests.fix_run`).
-/

namespace Formulary

namespace Parser

open Tape

variable {α β γ : Type} {tape tape' tape'' : Tape} {text rest rest' rest'' : List Char}
  {c c' c'' : Cursor}

/-! ### Inside parentheses -/

/-- The cursor `c'`, which can be reached from `c` on a later tape, stands right after an opening
parenthesis of what remains at `c`. -/
structure Inside (text : List Char) (tape : Tape) (c : Cursor) (rest : List Char)
    (tape' : Tape) (c' : Cursor) (rest' : List Char) : Prop where
  moves : Moves text tape c rest tape' c' rest'
  opening : '(' :: rest' <:+ rest

theorem Inside.offset_lt (h : Inside text tape c rest tape' c' rest') :
  c.offset < c'.offset
  := by
  apply h.moves.offset_lt_iff.mpr
  apply h.opening.length_le

theorem Inside.count_lt (h : Inside text tape c rest tape' c' rest') :
  rest'.count '(' < rest.count '('
  := by
  have hle := h.opening.sublist.count_le '('
  rw [List.count_cons_self] at hle
  apply hle

theorem Inside.of_moves (hmoves : Moves text tape c rest tape' c' rest')
    (h : Inside text tape' c' rest' tape'' c'' rest'') :
  Inside text tape c rest tape'' c'' rest''
  := ⟨hmoves.trans h.moves, h.opening.trans hmoves.suffix⟩

/-- Wherever `q` does inside what `p` does, `Q` does what `P` does. -/
def Agree (p q : Parser α) (P Q : Parser β) : Prop :=
  ∀ ⦃tape : Tape⦄ ⦃text : List Char⦄ ⦃c : Cursor⦄ ⦃rest : List Char⦄,
    tape.Spells text → tape.Stands text c rest →
      (∀ {tape' c' rest'}, Inside text tape c rest tape' c' rest' →
        q.run c' tape' = p.run c' tape') →
      Q.run c tape = P.run c tape

variable {p q : Parser α} {P Q : Parser β} {P' Q' : Parser γ}

theorem Agree.refl (p q : Parser α) (P : Parser β) :
  Agree p q P P
  := fun _ _ _ _ _ _ _ => rfl

theorem Agree.map (φ : β → γ) (h : Agree p q P Q) :
  Agree p q (P.map φ) (Q.map φ)
  := by
  intro tape text c rest hs hc hinside
  simp only [Parser.map, h hs hc hinside]

theorem Agree.orElse {P' Q' : Parser β} (hP : WellBehaved P) (h : Agree p q P Q)
    (h' : Agree p q P' Q') :
  Agree p q (P.orElse P') (Q.orElse Q')
  := by
  intro tape text c rest hs hc hinside
  obtain ⟨found, hread⟩ := wellBehaved_iff.mp hP hs hc
  simp only [Parser.orElse, h hs hc hinside]
  generalize P.run c tape = outcome at hread ⊢
  cases hread with
  | success moves => rfl
  | @failure tape' leads =>
      -- the second parser is run from the same cursor, on a later tape
      apply h' leads.spells (hc.mono leads)
      intro _ _ _ hin
      apply hinside
      apply Inside.of_moves (leads.moves hc) hin

theorem Agree.bind {next next' : β → Parser γ} (hP : WellBehaved P) (h : Agree p q P Q)
    (hnext : ∀ b, Agree p q (next b) (next' b)) :
  Agree p q (P.bind next) (Q.bind next')
  := by
  intro tape text c rest hs hc hinside
  obtain ⟨found, hread⟩ := wellBehaved_iff.mp hP hs hc
  simp only [Parser.bind, h hs hc hinside]
  generalize P.run c tape = outcome at hread ⊢
  cases hread with
  | failure leads => rfl
  | @success b _ c' tape' moves =>
      have hrun := hnext b moves.leads.spells moves.stands fun hin => hinside (.of_moves moves hin)
      simp only [hrun]

theorem Agree.foldl {δ : Type} (seed : δ) (combine : δ → β → δ) (hP : WellBehaved P)
    (h : Agree p q P Q) :
  Agree p q (P.foldl seed combine) (Q.foldl seed combine)
  := by
  intro tape text c rest hs hc hinside
  simp only [Parser.foldl]
  generalize tape.capacity + 1 = fuel
  induction fuel generalizing seed tape c rest with
  | zero => rfl
  | succ fuel ih =>
      obtain ⟨found, hread⟩ := wellBehaved_iff.mp hP hs hc
      simp only [foldLoop, h hs hc hinside]
      generalize P.run c tape = outcome at hread ⊢
      cases hread with
      | failure leads => rfl
      | @success b _ c' tape' moves =>
          simp only
          rw [ih (combine seed b) moves.leads.spells moves.stands
            fun hin => hinside (.of_moves moves hin)]

theorem Agree.both (hP : WellBehaved P) (h : Agree p q P Q) (h' : Agree p q P' Q') :
  Agree p q (P.both P') (Q.both Q')
  := by
  rw [both_eq_bind, both_eq_bind]
  apply h.bind hP
  intro b
  apply h'.map

theorem Agree.optional (hP : WellBehaved P) (h : Agree p q P Q) :
  Agree p q P.optional Q.optional
  := by
  rw [optional_eq_orElse, optional_eq_orElse]
  apply (h.map some).orElse (hP.map some) (.refl ..)

theorem Agree.many (hP : WellBehaved P) (h : Agree p q P Q) :
  Agree p q P.many Q.many
  := (h.foldl _ _ hP).map _

/-- What is read between parentheses is read inside. -/
theorem agree_parenthesised (p q : Parser α) :
  Agree p q (((token "(").both p).both (token ")")).fst.snd
    (((token "(").both q).both (token ")")).fst.snd
  := by
  intro tape text c rest hs hc hinside
  have hread := denotes_token "(" hs hc
  have hopening : ((token "(").both q).run c tape = ((token "(").both p).run c tape := by
    simp only [Parser.both]
    generalize (token "(").run c tape = outcome, hfound : (Scan.token "(").read rest = found
      at hread ⊢
    cases hread with
    | failure leads => rfl
    | success moves =>
        obtain ⟨-, spaces, -, hrest⟩ := (Scan.token_eq_some rfl (by decide)).mp hfound
        have hrun := hinside ⟨moves, spaces, hrest.symm⟩
        simp only [hrun]
  generalize (token "(").both p = P, (token "(").both q = Q at hopening ⊢
  simp only [fst, snd, map, Parser.both, hopening]

/-! ### Rounds of a grammar -/

/-- A grammar over a parser of itself, which it reads with inside parentheses only. -/
structure Nests (build : Parser α → Parser α) : Prop where
  wellBehaved : ∀ {p}, WellBehaved p → WellBehaved (build p)
  agree : ∀ {p q}, WellBehaved p → Agree p q (build p) (build q)

variable {build : Parser α → Parser α} {depth depth' : Nat}

theorem approximate_eq_iterate (build : Parser α → Parser α) (depth : Nat) :
  approximate build depth = build^[depth] fail
  := by
  induction depth with
  | zero => rfl
  | succ depth ih => rw [Function.iterate_succ_apply', ← ih, approximate, handle_some]

theorem Nests.wellBehaved_iterate (hbuild : Nests build) (hp : WellBehaved p) (depth : Nat) :
  WellBehaved (build^[depth] p)
  := by
  induction depth with
  | zero => apply hp
  | succ depth ih =>
      rw [Function.iterate_succ_apply']
      apply hbuild.wellBehaved ih

theorem Nests.wellBehaved_fix (hbuild : Nests build) :
  WellBehaved (fix build)
  := admissible_wellBehaved.fix_of_build hbuild.wellBehaved

/-- Rounds over any two parsers do the same where no more parentheses open than there are rounds. -/
theorem Nests.iterate_run_eq (hbuild : Nests build) (hp : WellBehaved p) (q : Parser α)
    (hs : tape.Spells text) (hc : tape.Stands text c rest) (h : rest.count '(' < depth)
    (h' : rest.count '(' < depth') :
  (build^[depth'] q).run c tape = (build^[depth] p).run c tape
  := by
  induction depth generalizing depth' tape c rest with
  | zero => cases h
  | succ depth ih =>
      cases depth' with
      | zero => cases h'
      | succ depth' =>
          rw [Function.iterate_succ_apply', Function.iterate_succ_apply']
          apply hbuild.agree (hbuild.wellBehaved_iterate hp depth) hs hc
          intro tape' c' rest' hinside
          have hlt := hinside.count_lt
          apply ih hinside.moves.leads.spells hinside.moves.stands
          · omega
          · omega

/-- Enough rounds of a grammar over any parser do what the grammar does that refers to itself. -/
theorem Nests.iterate_run (hbuild : Nests build) (q : Parser α) (hs : tape.Spells text)
    (hc : tape.Stands text c rest) (h : rest.count '(' < depth) :
  (build^[depth] q).run c tape = (fix build).run c tape
  := by
  have hcapacity : rest.count '(' < tape.capacity + 1 := by
    apply Nat.lt_succ_of_le
    apply Nat.le_trans (Nat.le_trans List.count_le_length hc.suffix.length_le) hs.within
  have hfix : (fix build).run c tape = (build^[tape.capacity + 1] fail).run c tape := by
    rw [← approximate_eq_iterate, fix]
  rw [hfix]
  apply hbuild.iterate_run_eq admissible_wellBehaved.fail q hs hc hcapacity h

/-- A grammar that refers to itself satisfies its own equation. -/
theorem Nests.fix_run (hbuild : Nests build) (hs : tape.Spells text)
    (hc : tape.Stands text c rest) :
  (fix build).run c tape = (build (fix build)).run c tape
  := by
  rw [← hbuild.iterate_run fail hs hc (Nat.lt_succ_self _), Function.iterate_succ_apply']
  apply hbuild.agree hbuild.wellBehaved_fix hs hc
  intro tape' c' rest' hinside
  apply hbuild.iterate_run fail hinside.moves.leads.spells hinside.moves.stands hinside.count_lt

/-! ### Entries within each other -/

/-- At the cursor and tape `s`, the grammar enters itself again at `s'`: what it does at `s` would
be different if something else was done at `s'`, and at `s'` only. -/
def Enters (build : Parser α → Parser α) (s s' : Cursor × Tape) : Prop :=
  ∃ q : Parser α, (∀ d, d ≠ s' → q.run d.1 d.2 = (fix build).run d.1 d.2)
    ∧ (build q).run s.1 s.2 ≠ (build (fix build)).run s.1 s.2

/-- A grammar enters itself inside parentheses only. -/
theorem Nests.inside_of_enters {s' : Cursor × Tape} (hbuild : Nests build)
    (hs : tape.Spells text) (hc : tape.Stands text c rest) (h : Enters build (c, tape) s') :
  ∃ rest', Inside text tape c rest s'.2 s'.1 rest'
  := by
  obtain ⟨q, hq, hne⟩ := h
  by_contra hinside
  apply hne
  apply hbuild.agree hbuild.wellBehaved_fix hs hc
  intro tape' c' rest' hin
  apply hq (c', tape')
  rintro rfl
  apply hinside
  use rest'

/-- There is at most one more entry within another than parentheses open. -/
theorem Nests.length_entries_le {entries : List (Cursor × Tape)} (hbuild : Nests build)
    (hs : tape.Spells text) (hc : tape.Stands text c rest)
    (h : List.IsChain (Enters build) ((c, tape) :: entries)) :
  entries.length ≤ rest.count '('
  := by
  induction entries generalizing tape c rest with
  | nil => apply Nat.zero_le
  | cons s entries ih =>
      obtain ⟨henters, hentries⟩ := List.isChain_cons_cons.mp h
      obtain ⟨rest', hinside⟩ := hbuild.inside_of_enters hs hc henters
      have hle := ih hinside.moves.leads.spells hinside.moves.stands hentries
      have hlt := hinside.count_lt
      rw [List.length_cons]
      omega

/-- At the cursor `c`, before `rest`, a grammar nests no deeper than parentheses do.  It enters
itself at larger offsets only, right after an opening parenthesis; there is at most one more entry
within another than parentheses open; and as many rounds of the grammar as there may be entries,
over any parser, do what it does. -/
structure Bounded (build : Parser α → Parser α) (text : List Char) (tape : Tape) (c : Cursor)
    (rest : List Char) : Prop where
  enters : ∀ {s}, Enters build (c, tape) s →
    c.offset < s.1.offset ∧ ∃ rest', s.2.Stands text s.1 rest' ∧ '(' :: rest' <:+ rest
  entries : ∀ {entries}, List.IsChain (Enters build) ((c, tape) :: entries) →
    ((c, tape) :: entries).length ≤ rest.count '(' + 1
  rounds : ∀ {depth}, rest.count '(' + 1 ≤ depth → ∀ q,
    (build^[depth] q).run c tape = (fix build).run c tape

theorem Nests.bounded (hbuild : Nests build) (hs : tape.Spells text)
    (hc : tape.Stands text c rest) :
  Bounded build text tape c rest
  where
  enters h := by
    obtain ⟨rest', hinside⟩ := hbuild.inside_of_enters hs hc h
    exact ⟨hinside.offset_lt, rest', hinside.moves.stands, hinside.opening⟩
  entries h := by
    rw [List.length_cons]
    apply Nat.succ_le_succ (hbuild.length_entries_le hs hc h)
  rounds h q := hbuild.iterate_run q hs hc h

theorem Composed.wellBehaved {p : Parser α} (hp : Composed WellBehaved p) :
  WellBehaved p
  := admissible_wellBehaved.of_composed id hp

/-! ### What fails with its first part -/

theorem both_run_of_failure (h : P.run c tape = (.failure c', tape')) :
  (P.both P').run c tape = (.failure c, tape')
  := by simp only [Parser.both, h]

theorem map_run_of_failure {φ : β → γ} (h : P.run c tape = (.failure c', tape')) :
  (P.map φ).run c tape = (.failure c', tape')
  := by simp only [Parser.map, h, Result.map]

/-- A choice comes down to the second parser. -/
theorem orElse_run_of_failure {P' : Parser β} (h : P.run c tape = (.failure c', tape')) :
  (P.orElse P').run c tape = P'.run c tape'
  := by simp only [Parser.orElse, h]

end Parser

/-! ### The grammar of formulas -/

namespace Formula

open Formulary.Parser

variable {p q P Q : Parser Term}

/-- A round of the grammar of formulas, over a parser of the formulas in parentheses. -/
def nesting (formula : Parser Term) : Parser Term :=
  disjunctionOf (conjunctionOf (negationOf (equationOf (atomOf formula))))

theorem formula_eq :
  formula = fix nesting
  := rfl

theorem nesting_formula :
  nesting formula = disjunctionOf conjunction
  := rfl

theorem agree_atomOf (p q : Parser Term) :
  Agree p q (atomOf p) (atomOf q)
  := by
  apply (Agree.refl p q _).orElse _ (agree_parenthesised p q)
  apply Composed.wellBehaved ((composed_value.map _).orElse (composed_ident.map _))

theorem agree_equationOf (hP : WellBehaved P) (h : Agree p q P Q) :
  Agree p q (equationOf P) (equationOf Q)
  := by
  have hP' : Composed WellBehaved P := .given hP
  have hsign := (Agree.refl p q (token "=")).both (composed_token "=").wellBehaved h
  apply (h.both hP ((hsign.map _).optional _)).map
  apply ((composed_token "=").both hP').snd.wellBehaved

theorem agree_negationOf (h : Agree p q P Q) :
  Agree p q (negationOf P) (negationOf Q)
  := by
  apply ((Agree.refl p q _).both _ h).map
  apply ((composed_keyword "NOT").foldl _ _).wellBehaved

theorem agree_chainOf (word : String) (join : Term → Term → Term) (hP : WellBehaved P)
    (h : Agree p q P Q) :
  Agree p q (chainOf word join P) (chainOf word join Q)
  := by
  have hP' : Composed WellBehaved P := .given hP
  have hlink := (Agree.refl p q (keyword word)).both (composed_keyword word).wellBehaved h
  apply (h.both hP ((hlink.map _).many _)).map
  apply ((composed_keyword word).both hP').snd.wellBehaved

theorem nests :
  Nests nesting
  where
  wellBehaved {p} hp := by
    have hgiven : Composed WellBehaved p := .given hp
    have hnegation := composed_negationOf (composed_equationOf (composed_atomOf hgiven))
    apply (composed_chainOf "OR" .or (composed_chainOf "AND" .and hnegation)).wellBehaved
  agree {p q} hp := by
    have hgiven : Composed WellBehaved p := .given hp
    have hatom := composed_atomOf hgiven
    have hnegation := composed_negationOf (composed_equationOf hatom)
    have hconjunction := composed_chainOf "AND" .and hnegation
    apply agree_chainOf "OR" .or hconjunction.wellBehaved
    apply agree_chainOf "AND" .and hnegation.wellBehaved
    apply agree_negationOf
    apply agree_equationOf hatom.wellBehaved (agree_atomOf p q)

end Formula

/-! ### The grammar of expressions -/

namespace Arithmetic

open Formulary.Parser

variable {p q P Q : Parser Outcome}

/-- A round of the grammar of expressions, over a parser of the expressions in parentheses. -/
def nesting (expression : Parser Outcome) : Parser Outcome :=
  expressionOf (addendOf (multiplicandOf expression))

theorem expression_eq :
  expression = fix nesting
  := rfl

theorem nesting_expression :
  nesting expression = expressionOf addend
  := rfl

theorem agree_multiplicandOf (p q : Parser Outcome) :
  Agree p q (multiplicandOf p) (multiplicandOf q)
  := by
  apply (Agree.refl p q _).orElse _ (agree_parenthesised p q)
  apply (composed_number.map _).wellBehaved

theorem agree_chainOf {operator : Parser Operator} (hoperator : WellBehaved operator)
    (hP : WellBehaved P) (h : Agree p q P Q) :
  Agree p q (chainOf operator P) (chainOf operator Q)
  := by
  have hP' : Composed WellBehaved P := .given hP
  have hoperator' : Composed WellBehaved operator := .given hoperator
  apply h.bind hP
  intro first
  apply ((Agree.refl p q operator).both hoperator h).foldl
  apply (hoperator'.both hP').wellBehaved

theorem nests :
  Nests nesting
  where
  wellBehaved {p} hp := by
    have hgiven : Composed WellBehaved p := .given hp
    apply (composed_expressionOf (composed_addendOf (composed_multiplicandOf hgiven))).wellBehaved
  agree {p q} hp := by
    have hgiven : Composed WellBehaved p := .given hp
    have hmultiplicand := composed_multiplicandOf hgiven
    have haddend := composed_addendOf hmultiplicand
    apply agree_chainOf (composed_operator ..).wellBehaved haddend.wellBehaved
    apply agree_chainOf (composed_operator ..).wellBehaved hmultiplicand.wellBehaved
    apply agree_multiplicandOf p q

end Arithmetic

/-! ### Both grammars -/

open Formulary.Parser Formulary.Tape

variable {tape : Tape} {text rest : List Char} {c : Cursor}

/-- From any cursor on any tape both grammars nest no deeper than parentheses do, and their rules
satisfy the equations of the grammar. -/
theorem nesting_bounded (hs : tape.Spells text) (hc : tape.Stands text c rest) :
  (Formula.formula = fix Formula.nesting ∧ Bounded Formula.nesting text tape c rest)
    ∧ (Arithmetic.expression = fix Arithmetic.nesting
        ∧ Bounded Arithmetic.nesting text tape c rest)
    ∧ (Formula.disjunction.run c tape = (Formula.disjunctionOf Formula.conjunction).run c tape
        ∧ Formula.conjunction.run c tape = (Formula.conjunctionOf Formula.negation).run c tape
        ∧ Formula.negation.run c tape = (Formula.negationOf Formula.equation).run c tape
        ∧ Formula.equation.run c tape = (Formula.equationOf Formula.atom).run c tape
        ∧ Formula.atom.run c tape = (Formula.atomOf Formula.disjunction).run c tape)
    ∧ (Arithmetic.expression.run c tape = (Arithmetic.expressionOf Arithmetic.addend).run c tape
        ∧ Arithmetic.addend.run c tape = (Arithmetic.addendOf Arithmetic.multiplicand).run c tape
        ∧ Arithmetic.multiplicand.run c tape
            = (Arithmetic.multiplicandOf Arithmetic.expression).run c tape)
  := by
  have hformula : Formula.formula.run c tape = (Formula.nesting Formula.formula).run c tape := by
    rw [Formula.formula_eq]
    apply Formula.nests.fix_run hs hc
  have hexpression : Arithmetic.expression.run c tape
      = (Arithmetic.nesting Arithmetic.expression).run c tape := by
    rw [Arithmetic.expression_eq]
    apply Arithmetic.nests.fix_run hs hc
  rw [Formula.nesting_formula] at hformula
  rw [Arithmetic.nesting_expression] at hexpression
  exact ⟨⟨Formula.formula_eq, Formula.nests.bounded hs hc⟩,
    ⟨Arithmetic.expression_eq, Arithmetic.nests.bounded hs hc⟩,
    ⟨hformula, rfl, rfl, rfl, rfl⟩, hexpression, rfl, rfl⟩

/-- In `(x)` the grammar of formulas enters itself after the parenthesis: without a formula there,
there is no formula at the beginning. -/
theorem Formula.enters_parenthesised :
  Enters Formula.nesting (ofText "(x)") (⟨some 1, 1⟩, (ofText "(x)").2)
  := by
  classical
  generalize hstart : ofText "(x)" = start
  let q : Parser Term := ⟨fun c tape =>
    if (c, tape) = (⟨some 1, 1⟩, start.2) then (.failure c, tape)
    else (fix Formula.nesting).run c tape⟩
  have hinner : q.run ⟨some 1, 1⟩ start.2 = (.failure ⟨some 1, 1⟩, start.2) := if_pos rfl
  have hreads : ((Formula.nesting (fix Formula.nesting)).run start.1 start.2).1.isSuccess := by
    subst hstart
    decide +kernel
  -- at the beginning there is a parenthesis, and no value, name or negation
  have hleaf : ((Formula.value.map Term.value).orElse (Formula.ident.map .identifier)).run
      start.1 start.2 = (.failure start.1, start.2) := by
    subst hstart
    rfl
  have hopening : (token "(").run start.1 start.2 = (.success "(" ⟨some 1, 1⟩, start.2) := by
    subst hstart
    rfl
  have hnot : ((keyword "NOT").foldl false fun negated _ => !negated).run start.1 start.2
      = (.success false start.1, start.2) := by
    subst hstart
    rfl
  have hempty : ((token "(").both q).run start.1 start.2 = (.failure start.1, start.2) := by
    simp only [both, hopening, hinner]
  have hatom : (Formula.atomOf q).run start.1 start.2 = (.failure start.1, start.2) := by
    rw [Formula.atomOf, orElse_run_of_failure hleaf]
    apply map_run_of_failure
    apply map_run_of_failure
    apply both_run_of_failure hempty
  have hequation : (Formula.equationOf (Formula.atomOf q)).run start.1 start.2
      = (.failure start.1, start.2) := by
    rw [Formula.equationOf]
    apply map_run_of_failure
    apply both_run_of_failure hatom
  have hnegation : (Formula.negationOf (Formula.equationOf (Formula.atomOf q))).run start.1 start.2
      = (.failure start.1, start.2) := by
    simp only [Formula.negationOf, map, both, hnot, hequation, Result.map]
  have hconjunction : (Formula.conjunctionOf (Formula.negationOf (Formula.equationOf
      (Formula.atomOf q)))).run start.1 start.2 = (.failure start.1, start.2) := by
    rw [Formula.conjunctionOf, Formula.chainOf]
    apply map_run_of_failure
    apply both_run_of_failure hnegation
  have hdisjunction : (Formula.nesting q).run start.1 start.2 = (.failure start.1, start.2) := by
    rw [Formula.nesting, Formula.disjunctionOf, Formula.chainOf]
    apply map_run_of_failure
    apply both_run_of_failure hconjunction
  use q
  constructor
  · intro d hd
    apply if_neg hd
  · intro heq
    rw [← heq, hdisjunction] at hreads
    cases hreads

/-- In `(x)` there are two entries within each other, the second one farther on, and as many rounds
of the grammar are enough. -/
theorem nesting_bounded_parenthesised :
  let start := ofText "(x)"
  let inner : Cursor × Tape := (⟨some 1, 1⟩, start.2)
  List.IsChain (Enters Formula.nesting) [start, inner]
    ∧ start.1.offset < inner.1.offset
    ∧ [start, inner].length ≤ "(x)".toList.count '(' + 1
    ∧ (Formula.nesting^[2] fail).run start.1 start.2 = Formula.formula.run start.1 start.2
  := by
  intro start inner
  obtain ⟨⟨hformula, hbounded⟩, -⟩ :=
    nesting_bounded (ofText_spells "(x)") (ofText_stands "(x)")
  have hentries : List.IsChain (Enters Formula.nesting) [start, inner] :=
    List.IsChain.cons_cons Formula.enters_parenthesised (.singleton _)
  refine ⟨hentries, (hbounded.enters Formula.enters_parenthesised).1, hbounded.entries hentries, ?_⟩
  rw [hformula]
  apply hbounded.rounds
  decide

end Formulary
