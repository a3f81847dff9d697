import Formulary.Proofs.Formula.Derivation

/-!
# The scans of the grammar

For each rule of the grammar there is the scan that its parser denotes, over the scan of formulas
that a parenthesis nests.  The grammar passes the opening parenthesis before it nests, so that the
scan of formulas satisfies its own equation (`formulaScan_eq`).

For each rule a lemma says what its scan reads in terms of the scans of its parts.
-/

namespace Formulary.Formula

open Formulary.Parser

variable {k : Connective} {xs ys rest : List Char} {t : Term}

/-! ### Scans -/

/-- Reads a word that is no keyword. -/
def identScan : Scan String :=
  (Scan.identifier.filterMap fun word => if word ∈ keywords then none else some word).spaced

/-- Reads a truth value. -/
def boolScan : Scan Bool := (Scan.identifier.filterMap truth?).spaced

/-- Reads a truth value or a text. -/
def valueScan : Scan Value := ((boolScan.map .bool).orElse (textScan.map .str)).spaced

/-- Reads an atom, where `f` reads formulas. -/
def atomScan (f : Scan Term) : Scan Term :=
  ((valueScan.map .value).orElse (identScan.map .identifier)).orElse f.parenthesised

/-- Reads the other side of an equation. -/
def otherSideScan (a : Scan Term) : Scan Term := ((Scan.token "=").both a).map Prod.snd

/-- Reads an equation, where `a` reads atoms. -/
def equationScan (a : Scan Term) : Scan Term :=
  (a.both (otherSideScan a).optional).map fun
    | (left, some right) => .equation left right
    | (term, none) => term

/-- Reads negations and an equation, where `e` reads equations. -/
def negationScan (e : Scan Term) : Scan Term :=
  (((Scan.keyword "NOT").foldl false fun negated _ => !negated).both e).map fun
    | (true, term) => .not term
    | (false, term) => term

/-- Reads one more operand of a chain. -/
def linkScan (k : Connective) (o : Scan Term) : Scan Term :=
  ((Scan.keyword k.word).both o).map Prod.snd

/-- Reads a chain, where `o` reads operands. -/
def chainScan (k : Connective) (o : Scan Term) : Scan Term :=
  (o.both (linkScan k o).many).map fun (first, rest) => nestRight k.join first rest

/-- Reads a conjunction, where `f` reads the formulas in parentheses. -/
def conjunctionScan (f : Scan Term) : Scan Term :=
  chainScan .and (negationScan (equationScan (atomScan f)))

/-- Reads a formula, where `f` reads the formulas in parentheses. -/
def disjunctionScan (f : Scan Term) : Scan Term := chainScan .or (conjunctionScan f)

/-- Reads a formula. -/
def formulaScan : Scan Term := .fix disjunctionScan

/-- Reads by a rule of the grammar. -/
def scan : Rule → Scan Term
  | .atom => atomScan formulaScan
  | .equation => equationScan (atomScan formulaScan)
  | .negation => negationScan (equationScan (atomScan formulaScan))
  | .chain .and => conjunctionScan formulaScan
  | .chain .or => formulaScan

/-! ### What the parsers denote -/

theorem denotes_ident :
  Denotes ident identScan
  := ((denotes_identifier.filterMap _).reporting _).spaced

theorem denotes_bool :
  Denotes bool boolScan
  := (denotes_identifier.filterMap _).spaced

theorem denotes_value :
  Denotes value valueScan
  := ((denotes_bool.map _).orElse (denotes_text.map _)).spaced

theorem denotes_atomOf {p : Parser Term} {f : Scan Term} (hp : Denotes p f) :
  Denotes (atomOf p) (atomScan f)
  := ((denotes_value.map _).orElse (denotes_ident.map _)).orElse hp.parenthesised

theorem denotes_equationOf {p : Parser Term} {f : Scan Term} (hp : Denotes p f) :
  Denotes (equationOf p) (equationScan f)
  := (hp.both ((denotes_token "=").both hp).snd.optional).map _

theorem denotes_negationOf {p : Parser Term} {f : Scan Term} (hp : Denotes p f) :
  Denotes (negationOf p) (negationScan f)
  := (((denotes_keyword "NOT").foldl _ _).both hp).map _

theorem denotes_chainOf (k : Connective) {p : Parser Term} {f : Scan Term} (hp : Denotes p f) :
  Denotes (chainOf k.word k.join p) (chainScan k f)
  := (hp.both ((denotes_keyword k.word).both hp).snd.many).map _

/-! ### Nesting -/

variable {n : Nat} {f g : Scan Term}

/-- The opening parenthesis is passed before a formula is read. -/
theorem agreeBelow_atomScan (h : Scan.AgreeBelow n f g) :
  Scan.AgreeBelow (n + 1) (atomScan f) (atomScan g)
  := (Scan.AgreeBelow.refl _ _).orElse h.parenthesised

theorem agreeBelow_equationScan (h : Scan.AgreeBelow n f g) :
  Scan.AgreeBelow n (equationScan f) (equationScan g)
  := (h.both (((Scan.AgreeBelow.refl n _).both h).map _).optional).map _

theorem agreeBelow_negationScan (h : Scan.AgreeBelow n f g) :
  Scan.AgreeBelow n (negationScan f) (negationScan g)
  := ((Scan.AgreeBelow.refl n _).both h).map _

theorem agreeBelow_chainScan (k : Connective) (h : Scan.AgreeBelow n f g) :
  Scan.AgreeBelow n (chainScan k f) (chainScan k g)
  := (h.both (((Scan.AgreeBelow.refl n _).both h).map _).many).map _

theorem guarded_disjunctionScan :
  Scan.Guarded disjunctionScan
  := by
  intro n f g h
  have hequation := agreeBelow_equationScan (agreeBelow_atomScan h)
  have hconjunction := agreeBelow_chainScan .and (agreeBelow_negationScan hequation)
  apply agreeBelow_chainScan .or hconjunction

/-- Formulas are disjunctions, and those in parentheses too. -/
theorem formulaScan_eq :
  formulaScan = disjunctionScan formulaScan
  := Scan.fix_eq guarded_disjunctionScan

theorem denotes_formula :
  Denotes formula formulaScan
  := by
  apply Denotes.fix _ guarded_disjunctionScan
  intro p f hp
  have hnegation := denotes_negationOf (denotes_equationOf (denotes_atomOf hp))
  apply denotes_chainOf .or (denotes_chainOf .and hnegation)

/-- A chain is one of operands of its connective. -/
theorem scan_chain (k : Connective) :
  scan (.chain k) = chainScan k (scan (.operand k))
  := by
  cases k with
  | and => rfl
  | or => apply formulaScan_eq

/-! ### What the scans read -/

theorem boolScan_eq_some {b : Bool} :
  boolScan.read xs = some (b, rest)
    ↔ b = true ∧ WordAt xs "TRUE" rest ∨ b = false ∧ WordAt xs "FALSE" rest
  := by
  rw [boolScan, Scan.spaced_filterMap_identifier_eq_some]
  constructor
  · rintro ⟨word, hword, htruth⟩
    unfold truth? at htruth
    split_ifs at htruth with htrue hfalse
    · obtain rfl := Option.some.inj htruth
      exact .inl ⟨rfl, htrue ▸ hword⟩
    · obtain rfl := Option.some.inj htruth
      exact .inr ⟨rfl, hfalse ▸ hword⟩
  · rintro (⟨rfl, h⟩ | ⟨rfl, h⟩)
    · use "TRUE", h
      decide
    · use "FALSE", h
      decide

theorem spaced_textScan_eq_some {s : String} :
  textScan.spaced.read xs = some (s, rest) ↔ ∃ ys, Gap xs ('"' :: ys) ∧ Contents ys s.toList rest
  := by
  simp only [← dropWhile_isSpace_eq_cons (y := '"') (by decide)]
  apply textScan_eq_some

/-- Both kinds of values are read after any spaces. -/
theorem valueScan_eq :
  valueScan = (boolScan.map .bool).orElse (textScan.spaced.map .str)
  := by
  have hbool : boolScan.spaced = boolScan := Scan.spaced_spaced _
  calc
    valueScan = (boolScan.spaced.map .bool).orElse (textScan.spaced.map .str) := rfl
    _ = (boolScan.map .bool).orElse (textScan.spaced.map .str) := by rw [hbool]

/-- A value is read where one stands. -/
theorem valueScan_eq_some {v : Value} :
  valueScan.read xs = some (v, rest) ↔ ValueAt xs v rest
  := by
  rw [valueScan_eq, Scan.orElse_eq_some_of_exclusive]
  · simp only [Scan.map_eq_some, boolScan_eq_some, spaced_textScan_eq_some]
    constructor
    · rintro (⟨b, ⟨rfl, h⟩ | ⟨rfl, h⟩, rfl⟩ | ⟨s, ⟨ys, hgap, hcontents⟩, rfl⟩)
      · apply ValueAt.true h
      · apply ValueAt.false h
      · apply ValueAt.text hgap hcontents
    · rintro (h | h | ⟨hgap, hcontents⟩)
      · exact .inl ⟨true, .inl ⟨rfl, h⟩, rfl⟩
      · exact .inl ⟨false, .inr ⟨rfl, h⟩, rfl⟩
      · exact .inr ⟨_, ⟨_, hgap, hcontents⟩, rfl⟩
  · intro _ _ _ _ hbool htext
    obtain ⟨b, hb, -⟩ := Scan.map_eq_some.mp hbool
    obtain ⟨s, hs, -⟩ := Scan.map_eq_some.mp htext
    obtain ⟨ys, hgap, -⟩ := spaced_textScan_eq_some.mp hs
    rcases boolScan_eq_some.mp hb with ⟨-, h⟩ | ⟨-, h⟩
    · apply h.not_gap _ _ hgap <;> decide
    · apply h.not_gap _ _ hgap <;> decide

/-- A word that is no keyword is read as an identifier. -/
theorem identScan_eq_some {name : String} :
  identScan.read xs = some (name, rest) ↔ WordAt xs name rest ∧ name ∉ keywords
  := by
  rw [identScan, Scan.spaced_filterMap_identifier_eq_some]
  simp only [Option.ite_none_left_eq_some, Option.some.injEq]
  constructor
  · rintro ⟨word, hword, hfree, rfl⟩
    exact ⟨hword, hfree⟩
  · rintro ⟨hword, hfree⟩
    use name

/-- The three kinds of atoms exclude each other. -/
theorem atomScan_eq_some {f : Scan Term} :
  (atomScan f).read xs = some (t, rest)
    ↔ (∃ v, ValueAt xs v rest ∧ .value v = t)
      ∨ (∃ name, (WordAt xs name rest ∧ name ∉ keywords) ∧ .identifier name = t)
      ∨ ∃ ys zs, Gap xs ('(' :: ys) ∧ f.read ys = some (t, zs) ∧ Gap zs (')' :: rest)
  := by
  rw [atomScan, Scan.orElse_eq_some_of_exclusive, Scan.orElse_eq_some_of_exclusive, or_assoc]
  · simp only [Scan.map_eq_some, valueScan_eq_some, identScan_eq_some, Scan.parenthesised_eq_some]
  · intro _ _ _ _ hvalue hident
    obtain ⟨v, hv, -⟩ := Scan.map_eq_some.mp hvalue
    obtain ⟨name, hname, -⟩ := Scan.map_eq_some.mp hident
    obtain ⟨hword, hfree⟩ := identScan_eq_some.mp hname
    apply hfree
    rcases (valueScan_eq_some.mp hv).word_eq hword with rfl | rfl <;> decide
  · intro _ _ _ _ hleaf hparenthesised
    obtain ⟨ys, zs, hopening, -, -⟩ := Scan.parenthesised_eq_some.mp hparenthesised
    rcases Scan.orElse_eq_some.mp hleaf with hvalue | ⟨-, hident⟩
    · obtain ⟨v, hv, -⟩ := Scan.map_eq_some.mp hvalue
      apply (valueScan_eq_some.mp hv).not_gap hopening
    · obtain ⟨name, hname, -⟩ := Scan.map_eq_some.mp hident
      apply (identScan_eq_some.mp hname).1.not_gap _ _ hopening <;> decide

theorem otherSideScan_eq_some {a : Scan Term} :
  (otherSideScan a).read xs = some (t, rest) ↔ ∃ ys, Gap xs ('=' :: ys) ∧ a.read ys = some (t, rest)
  := by
  have hsign {ys zs : List Char} {s : String} :
      (Scan.token "=").read ys = some (s, zs) ↔ s = "=" ∧ Gap ys ('=' :: zs) :=
    Scan.token_eq_some rfl (by decide)
  simp only [otherSideScan, Scan.map_eq_some, Prod.exists, Scan.both_eq_some, hsign]
  constructor
  · rintro ⟨_, _, ⟨ys, ⟨-, hgap⟩, ha⟩, rfl⟩
    use ys
  · rintro ⟨ys, hgap, ha⟩
    exact ⟨"=", t, ⟨ys, ⟨rfl, hgap⟩, ha⟩, rfl⟩

/-- The other side of an equation is read if there is one. -/
theorem equationScan_eq_some {a : Scan Term} :
  (equationScan a).read xs = some (t, rest)
    ↔ (∃ left right ys, a.read xs = some (left, ys)
        ∧ (otherSideScan a).read ys = some (right, rest) ∧ .equation left right = t)
      ∨ a.read xs = some (t, rest) ∧ (otherSideScan a).read rest = none
  := by
  simp only [equationScan, Scan.map_eq_some, Prod.exists, Scan.both_eq_some, Scan.optional_eq_some]
  constructor
  · rintro ⟨left, _, ⟨ys, ha, ⟨right, hright, rfl⟩ | ⟨hnone, rfl, rfl⟩⟩, rfl⟩
    · exact .inl ⟨left, right, ys, ha, hright, rfl⟩
    · exact .inr ⟨ha, hnone⟩
  · rintro (⟨left, right, ys, ha, hright, rfl⟩ | ⟨ha, hnone⟩)
    · exact ⟨left, some right, ⟨ys, ha, .inl ⟨right, hright, rfl⟩⟩, rfl⟩
    · exact ⟨t, none, ⟨rest, ha, .inr ⟨hnone, rfl, rfl⟩⟩, rfl⟩

theorem gather_of_negations {n : Nat} (h : Negations n xs rest)
    (hmax : ∀ zs, ¬WordAt rest "NOT" zs) (b : Bool) :
  (Scan.keyword "NOT").gather (fun negated _ => !negated) b xs
    = (if n % 2 = 0 then b else !b, rest)
  := by
  induction h generalizing b with
  | none =>
      apply Scan.gather_of_none
      rw [Option.eq_none_iff_forall_ne_some]
      rintro ⟨word, zs⟩ hread
      apply hmax zs (Scan.keyword_eq_some.mp hread).2
  | @more n _ _ _ word _ ih =>
      rw [Scan.gather_of_some (Scan.keyword_eq_some.mpr ⟨rfl, word⟩) word.length_lt, ih hmax]
      congr 1
      obtain hn | hn : n % 2 = 0 ∨ n % 2 = 1 := by omega
      · rw [if_pos hn, if_neg (by omega)]
      · rw [if_neg (by omega), if_pos (by omega), Bool.not_not]

theorem negations_of_gather {b b' : Bool}
    (h : (Scan.keyword "NOT").gather (fun negated _ => !negated) b xs = (b', rest)) :
  ∃ n, Negations n xs rest ∧ b' = if n % 2 = 0 then b else !b
  := by
  fun_induction Scan.gather (Scan.keyword "NOT") (fun negated _ => !negated) b xs with
  | case1 b xs hread =>
      obtain ⟨rfl, rfl⟩ := Prod.mk.inj h
      exact ⟨0, .none, rfl⟩
  | case2 b xs word ys hread hlt ih =>
      obtain ⟨-, hword⟩ := Scan.keyword_eq_some.mp hread
      obtain ⟨n, hn, rfl⟩ := ih h
      use n + 1, .more hword hn
      obtain hn | hn : n % 2 = 0 ∨ n % 2 = 1 := by omega
      · rw [if_pos hn, if_neg (by omega)]
      · rw [if_neg (by omega), if_pos (by omega), Bool.not_not]
  | case3 b xs word ys hread hlt =>
      exfalso
      apply hlt (Scan.keyword_eq_some.mp hread).2.length_lt

/-- All the negations before an equation are read with it. -/
theorem negationScan_of_negations {n : Nat} {e : Scan Term} (h : Negations n xs ys)
    (hmax : ∀ zs, ¬WordAt ys "NOT" zs) (he : e.read ys = some (t, rest)) :
  (negationScan e).read xs = some (negated n t, rest)
  := by
  apply Scan.map_eq_some.mpr
  use (if n % 2 = 0 then false else true, t)
  constructor
  · apply Scan.both_eq_some.mpr
    use ys
    constructor
    · apply congrArg some (gather_of_negations h hmax false)
    · apply he
  · unfold negated
    split_ifs <;> rfl

theorem negations_of_negationScan {e : Scan Term} (h : (negationScan e).read xs = some (t, rest)) :
  ∃ n ys u, Negations n xs ys ∧ e.read ys = some (u, rest) ∧ negated n u = t
  := by
  obtain ⟨⟨b, u⟩, hboth, rfl⟩ := Scan.map_eq_some.mp h
  obtain ⟨ys, hgather, he⟩ := Scan.both_eq_some.mp hboth
  obtain ⟨n, hn, rfl⟩ := negations_of_gather (Option.some.inj hgather)
  use n, ys, u, hn, he
  unfold negated
  split_ifs <;> rfl

theorem linkScan_eq_some {o : Scan Term} :
  (linkScan k o).read xs = some (t, rest)
    ↔ ∃ ys, WordAt xs k.word ys ∧ o.read ys = some (t, rest)
  := by
  simp only [linkScan, Scan.map_eq_some, Prod.exists, Scan.both_eq_some, Scan.keyword_eq_some]
  constructor
  · rintro ⟨_, _, ⟨ys, ⟨-, hword⟩, ho⟩, rfl⟩
    use ys
  · rintro ⟨ys, hword, ho⟩
    exact ⟨k.word, t, ⟨ys, ⟨rfl, hword⟩, ho⟩, rfl⟩

theorem chainScan_of_operand {o : Scan Term} {left : Term} (ho : o.read xs = some (left, ys)) :
  (chainScan k o).read xs
    = ((linkScan k o).many.read ys).map fun (next, rest) => (nestRight k.join left next, rest)
  := by
  simp only [chainScan, Scan.map, Scan.both, Scan.bind, ho]
  cases (linkScan k o).many.read ys <;> rfl

/-- A chain ends after an operand where no other one follows. -/
theorem chainScan_of_last {o : Scan Term} (ho : o.read xs = some (t, rest))
    (hlast : (linkScan k o).read rest = none) :
  (chainScan k o).read xs = some (t, rest)
  := by
  rw [chainScan_of_operand ho, Scan.many_of_none hlast]
  rfl

/-- After an operand the chain goes on as one that begins with the next operand. -/
theorem chainScan_of_link {zs ws : List Char} {o : Scan Term} {left next : Term}
    (ho : o.read xs = some (left, ys)) (hword : WordAt ys k.word zs)
    (hnext : o.read zs = some (next, ws)) :
  (chainScan k o).read xs
    = ((chainScan k o).read zs).map fun (right, rest) => (k.join left right, rest)
  := by
  have hlt : ws.length < ys.length := Nat.lt_of_le_of_lt (o.length_le hnext) hword.length_lt
  rw [chainScan_of_operand ho, chainScan_of_operand hnext,
    Scan.many_of_some (linkScan_eq_some.mpr ⟨zs, hword, hnext⟩) hlt, Option.map_map, Option.map_map]
  rfl

theorem exists_operand_of_chainScan {o : Scan Term}
    (h : (chainScan k o).read xs = some (t, rest)) :
  ∃ left ys, o.read xs = some (left, ys)
  := by
  obtain ⟨⟨left, next⟩, hboth, -⟩ := Scan.map_eq_some.mp h
  obtain ⟨ys, ho, -⟩ := Scan.both_eq_some.mp hboth
  use left, ys

/-- A chain is read as far as its first operand at least. -/
theorem exists_chainScan {o : Scan Term} {left : Term} (ho : o.read xs = some (left, ys)) :
  ∃ t rest, (chainScan k o).read xs = some (t, rest) ∧ rest.length ≤ ys.length
  := by
  rw [chainScan_of_operand ho]
  obtain ⟨⟨next, rest⟩, hmany⟩ : ∃ found, (linkScan k o).many.read ys = some found := ⟨_, rfl⟩
  rw [hmany]
  use nestRight k.join left next, rest, rfl
  apply Scan.length_le _ hmany

end Formulary.Formula
