import Formulary.Arithmetic.Grammar
import Formulary.Formula.Grammar
import Formulary.Proofs.Parser.Laws

/-!
# How parsers are composed

A parser is *composed* of given parsers when it is built from them, from `succeed` and `fail` and
from the parsers of code points by the ways to compose parsers.  The parsers of texts, words and
tokens are composed of none, and each rule of a grammar is composed of the parser that it is built
over.

A property of parsers is *closed* when the leaves have it and each way to compose parsers keeps it.
Sequences, conditions, options and repetitions come down to `bind`, `orElse`, `map` and `foldl`, so
that these are all that closedness asks for (`Closed.of_composed`).
-/

namespace Formulary

namespace Parser

variable {α β : Type}

/-! ### Composed parsers -/

/-- Built from given parsers and the leaves by the ways to compose parsers. -/
inductive Composed (Given : ∀ ⦃α : Type⦄, Parser α → Prop) : ∀ ⦃α : Type⦄, Parser α → Prop where
  | given {α : Type} {p : Parser α} (h : Given p) : Composed Given p
  | succeed {α : Type} (value : α) : Composed Given (succeed value)
  | fail {α : Type} : Composed Given (fail : Parser α)
  | codePoint (x : Char) : Composed Given (codePoint x)
  | codePointNot (excluded : List Char) : Composed Given (codePointNot excluded)
  | codePoints (xs : List Char) : Composed Given (codePoints xs)
  | several (first later : Char → Bool) : Composed Given (several first later)
  | both {α β : Type} {p : Parser α} {q : Parser β} (hp : Composed Given p)
      (hq : Composed Given q) : Composed Given (p.both q)
  | orElse {α : Type} {p q : Parser α} (hp : Composed Given p) (hq : Composed Given q) :
      Composed Given (p.orElse q)
  | map {α β : Type} (φ : α → β) {p : Parser α} (hp : Composed Given p) : Composed Given (p.map φ)
  | filterMap {α β : Type} (φ : α → Option β) {p : Parser α} (hp : Composed Given p) :
      Composed Given (p.filterMap φ)
  | optional {α : Type} {p : Parser α} (hp : Composed Given p) : Composed Given p.optional
  | many {α : Type} {p : Parser α} (hp : Composed Given p) : Composed Given p.many
  | many1 {α : Type} {p : Parser α} (hp : Composed Given p) : Composed Given p.many1
  | foldl {α β : Type} (seed : β) (combine : β → α → β) {p : Parser α} (hp : Composed Given p) :
      Composed Given (p.foldl seed combine)
  | bind {α β : Type} {p : Parser α} {next : α → Parser β} (hp : Composed Given p)
      (hnext : ∀ a, Composed Given (next a)) : Composed Given (p.bind next)
  | reporting {α : Type} (event : α → Option Event) {p : Parser α} (hp : Composed Given p) :
      Composed Given (p.reporting event)

variable {Given : ∀ ⦃α : Type⦄, Parser α → Prop}

theorem Composed.fst {p : Parser (α × β)} (hp : Composed Given p) :
  Composed Given p.fst
  := hp.map Prod.fst

theorem Composed.snd {p : Parser (α × β)} (hp : Composed Given p) :
  Composed Given p.snd
  := hp.map Prod.snd

theorem composed_string (s : String) :
  Composed Given (string s)
  := (Composed.codePoints s.toList).map String.ofList

theorem composed_identifier :
  Composed Given identifier
  := .several _ _

theorem composed_digits :
  Composed Given digits
  := .several _ _

theorem composed_spaces :
  Composed Given spaces
  := (Composed.several _ _).optional.map _

theorem Composed.spaced {p : Parser α} (hp : Composed Given p) :
  Composed Given (spaced p)
  := (composed_spaces.both hp).snd

theorem composed_token (s : String) :
  Composed Given (token s)
  := (composed_string s).spaced

theorem composed_keyword (word : String) :
  Composed Given (keyword word)
  := (composed_identifier.filterMap _).spaced

/-- A parser between parentheses. -/
theorem Composed.parenthesised {p : Parser α} (hp : Composed Given p) :
  Composed Given (((token "(").both p).both (token ")")).fst.snd
  := (((composed_token "(").both hp).both (composed_token ")")).fst.snd

/-! ### Closed properties -/

/-- The leaves have the property and the ways to compose parsers to which all come down keep it. -/
structure Closed (P : ∀ ⦃α : Type⦄, Parser α → Prop) : Prop where
  succeed : ∀ {α : Type} (value : α), P (succeed value)
  fail : ∀ {α : Type}, P (fail : Parser α)
  codePoint : ∀ x, P (codePoint x)
  codePointNot : ∀ excluded, P (codePointNot excluded)
  codePoints : ∀ xs, P (codePoints xs)
  several : ∀ first later, P (several first later)
  map : ∀ {α β : Type} (φ : α → β) {p : Parser α}, P p → P (p.map φ)
  orElse : ∀ {α : Type} {p q : Parser α}, P p → P q → P (p.orElse q)
  bind : ∀ {α β : Type} {p : Parser α} {next : α → Parser β}, P p → (∀ a, P (next a)) →
    P (p.bind next)
  foldl : ∀ {α β : Type} (seed : β) (combine : β → α → β) {p : Parser α}, P p →
    P (p.foldl seed combine)
  reporting : ∀ {α : Type} (event : α → Option Event) {p : Parser α}, P p → P (p.reporting event)

variable {P : ∀ ⦃α : Type⦄, Parser α → Prop}

theorem Closed.filterMap (h : Closed P) (φ : α → Option β) {p : Parser α} (hp : P p) :
  P (p.filterMap φ)
  := by
  rw [filterMap_eq_bind]
  apply h.bind hp
  intro a
  cases φ a with
  | none => apply h.fail
  | some b => apply h.succeed

theorem Closed.many (h : Closed P) {p : Parser α} (hp : P p) :
  P p.many
  := h.map _ (h.foldl _ _ hp)

/-- What is composed of parsers that have a closed property has it. -/
theorem Closed.of_composed (h : Closed P) (hgiven : ∀ {α : Type} {p : Parser α}, Given p → P p)
    {p : Parser α} (hp : Composed Given p) :
  P p
  := by
  induction hp with
  | given hp => apply hgiven hp
  | succeed value => apply h.succeed
  | fail => apply h.fail
  | codePoint x => apply h.codePoint
  | codePointNot excluded => apply h.codePointNot
  | codePoints xs => apply h.codePoints
  | several first later => apply h.several
  | both _ _ hp hq =>
      rw [both_eq_bind]
      apply h.bind hp
      intro a
      apply h.map _ hq
  | orElse _ _ hp hq => apply h.orElse hp hq
  | map φ _ hp => apply h.map φ hp
  | filterMap φ _ hp => apply h.filterMap φ hp
  | optional _ hp =>
      rw [optional_eq_orElse]
      apply h.orElse (h.map _ hp) (h.succeed _)
  | many _ hp => apply h.many hp
  | many1 _ hp =>
      rw [many1_eq_filterMap]
      apply h.filterMap _ (h.many hp)
  | foldl seed combine _ hp => apply h.foldl seed combine hp
  | bind _ _ hp hnext => apply h.bind hp hnext
  | reporting event _ hp => apply h.reporting event hp

/-- A closed property that a parser which refers to itself has when its approximations have it. -/
structure Admissible (P : ∀ ⦃α : Type⦄, Parser α → Prop) : Prop extends Closed P where
  fix : ∀ {α : Type} {build : Parser α → Parser α}, (∀ depth, P (approximate build depth)) →
    P (fix build)

theorem Admissible.fix_of_build (h : Admissible P) {build : Parser α → Parser α}
    (hbuild : ∀ {p : Parser α}, P p → P (build p)) :
  P (Parser.fix build)
  := by
  apply h.fix
  intro depth
  induction depth with
  | zero => apply h.fail
  | succ depth ih => apply hbuild ih

end Parser

variable {Given P : ∀ ⦃α : Type⦄, Parser α → Prop}

/-! ### The grammar of formulas -/

namespace Formula

open Formulary.Parser

variable {p : Parser Term}

theorem composed_ident :
  Composed Given ident
  := ((composed_identifier.filterMap _).reporting _).spaced

theorem composed_text :
  Composed Given text
  := by
  have hescaped : Composed Given ((codePoint '\\').both (codePoint '"')).snd :=
    ((Composed.codePoint '\\').both (.codePoint '"')).snd
  have hcontents := (hescaped.orElse (.codePointNot ['"'])).foldl "" String.push
  apply (((Composed.codePoint '"').both hcontents).snd.both (.codePoint '"')).fst

theorem composed_bool :
  Composed Given bool
  := (composed_identifier.filterMap _).spaced

theorem composed_value :
  Composed Given value
  := ((composed_bool.map _).orElse (composed_text.map _)).spaced

theorem composed_atomOf (hp : Composed Given p) :
  Composed Given (atomOf p)
  := ((composed_value.map _).orElse (composed_ident.map _)).orElse hp.parenthesised

theorem composed_equationOf (hp : Composed Given p) :
  Composed Given (equationOf p)
  := (hp.both ((composed_token "=").both hp).snd.optional).map _

theorem composed_negationOf (hp : Composed Given p) :
  Composed Given (negationOf p)
  := (((composed_keyword "NOT").foldl _ _).both hp).map _

theorem composed_chainOf (word : String) (join : Term → Term → Term) (hp : Composed Given p) :
  Composed Given (chainOf word join p)
  := (hp.both ((composed_keyword word).both hp).snd.many).map _

/-- Formulas are read by a parser that has every admissible property. -/
theorem formula_of_admissible (h : Admissible P) :
  P formula
  := by
  apply h.fix_of_build
  intro p hp
  have hgiven : Composed P p := .given hp
  have hequation := composed_equationOf (composed_atomOf hgiven)
  apply h.of_composed id
  apply composed_chainOf "OR" .or (composed_chainOf "AND" .and (composed_negationOf hequation))

end Formula

/-! ### The grammar of expressions -/

namespace Arithmetic

open Formulary.Parser

variable {p : Parser Outcome}

theorem composed_number :
  Composed Given number
  := (composed_digits.filterMap _).spaced

theorem composed_multiplicandOf (hp : Composed Given p) :
  Composed Given (multiplicandOf p)
  := (composed_number.map _).orElse hp.parenthesised

theorem composed_operator (s : String) (op : Operator) (s' : String) (op' : Operator) :
  Composed Given (operator s op s' op')
  := ((composed_token s).map _).orElse ((composed_token s').map _)

theorem composed_chainOf {q : Parser Operator} (hq : Composed Given q) (hp : Composed Given p) :
  Composed Given (chainOf q p)
  := hp.bind fun _ => (hq.both hp).foldl _ _

theorem composed_addendOf (hp : Composed Given p) :
  Composed Given (addendOf p)
  := composed_chainOf (composed_operator _ _ _ _) hp

theorem composed_expressionOf (hp : Composed Given p) :
  Composed Given (expressionOf p)
  := composed_chainOf (composed_operator _ _ _ _) hp

/-- Expressions are read by a parser that has every admissible property. -/
theorem expression_of_admissible (h : Admissible P) :
  P expression
  := by
  apply h.fix_of_build
  intro p hp
  have hgiven : Composed P p := .given hp
  have haddend := composed_addendOf (composed_multiplicandOf hgiven)
  apply h.of_composed id (composed_expressionOf haddend)

end Arithmetic

end Formulary
