import Formulary.Arithmetic.Grammar
import Formulary.Proofs.Arithmetic.Tree
import Formulary.Proofs.Parser.Words

/-!
# The grammar of expressions and its scans

`Derives r xs t rest` says that the rule `r` derives the tree `t` from what comes before `rest` in
`xs`.  Chains of operations are derived with the last operation at the top, as they associate to the
left.

The scans of the rules are taken for any meaning of trees: they build the meaning of an expression
as they read it.  The parsers of the grammar denote the scans that evaluate (`denotes_expression`).
-/

namespace Formulary.Arithmetic

open Formulary.Parser

variable {xs ys rest : List Char}

/-! ### Derivations -/

/-- The two levels of operators, the one that binds more strongly first. -/
inductive Level where
  | products
  | sums

/-- The level of an operator. -/
def Operator.level : Operator → Level
  | .times | .over => .products
  | .plus | .minus => .sums

/-- The code point that stands for an operator. -/
def Operator.sign : Operator → Char
  | .plus => '+'
  | .minus => '-'
  | .times => '*'
  | .over => '/'

/-- After any spaces comes a run of digits, as long as it can be, and then `rest`; the number that
the digits stand for can be represented with 64 bits. -/
structure NumberAt (xs digits rest : List Char) : Prop where
  gap : Gap xs (digits ++ rest)
  nonempty : digits ≠ []
  areDigits : ∀ d ∈ digits, isDigit d
  ends : ∀ x ∈ rest.head?, ¬isDigit x
  inRange : (ofDigits digits : Int) ≤ 2 ^ 63 - 1

/-- The rules of the grammar. -/
inductive Rule where
  | multiplicand
  | chain (k : Level)

/-- The rule of the operands of a level. -/
def Rule.operand : Level → Rule
  | .products => .multiplicand
  | .sums => .chain .products

/-- The rule derives the tree from what comes before `rest`. -/
inductive Derives : Rule → List Char → Tree → List Char → Prop where
  | number {xs digits rest : List Char} (number : NumberAt xs digits rest) :
      Derives .multiplicand xs (.number (ofDigits digits)) rest
  | parenthesised {xs ys zs rest : List Char} {t : Tree} (opening : Gap xs ('(' :: ys))
      (inner : Derives (.chain .sums) ys t zs) (closing : Gap zs (')' :: rest)) :
      Derives .multiplicand xs t rest
  | first {k : Level} {xs rest : List Char} {t : Tree} (operand : Derives (.operand k) xs t rest) :
      Derives (.chain k) xs t rest
  | more {k : Level} {xs ys zs rest : List Char} {op : Operator} {left right : Tree}
      (chain : Derives (.chain k) xs left ys) (level : op.level = k) (sign : Gap ys (op.sign :: zs))
      (operand : Derives (.operand k) zs right rest) :
      Derives (.chain k) xs (.operation op left right) rest

/-! ### Scans -/

variable {γ : Type} {m : Meaning γ} {k : Level} {v : γ}

/-- Reads a number. -/
def numberScan : Scan Int := ((Scan.several isDigit isDigit).filterMap number?).spaced

/-- Reads a number, or with `f` in parentheses. -/
def multiplicandScan (m : Meaning γ) (f : Scan γ) : Scan γ :=
  (numberScan.map m.number).orElse f.parenthesised

/-- Reads one of two operators. -/
def choiceScan (s : String) (op : Operator) (s' : String) (op' : Operator) : Scan Operator :=
  ((Scan.token s).map fun _ => op).orElse ((Scan.token s').map fun _ => op')

/-- Reads an operator of a level. -/
def operatorScan : Level → Scan Operator
  | .products => choiceScan "*" .times "/" .over
  | .sums => choiceScan "+" .plus "-" .minus

/-- Reads an operator and the operand after it. -/
def linkScan (k : Level) (o : Scan γ) : Scan (Operator × γ) := (operatorScan k).both o

/-- What has been read, with one more operation. -/
def Meaning.join (m : Meaning γ) (left : γ) : Operator × γ → γ
  | (op, right) => m.operation op left right

/-- Reads a chain, where `o` reads operands. -/
def chainScan (m : Meaning γ) (k : Level) (o : Scan γ) : Scan γ :=
  o.bind fun first => (linkScan k o).foldl first m.join

/-- Reads an expression, where `f` reads those in parentheses. -/
def nestedScan (m : Meaning γ) (f : Scan γ) : Scan γ :=
  chainScan m .sums (chainScan m .products (multiplicandScan m f))

/-- Reads an expression. -/
def expressionScan (m : Meaning γ) : Scan γ := .fix (nestedScan m)

/-- Reads by a rule of the grammar. -/
def scan (m : Meaning γ) : Rule → Scan γ
  | .multiplicand => multiplicandScan m (expressionScan m)
  | .chain .products => chainScan m .products (multiplicandScan m (expressionScan m))
  | .chain .sums => expressionScan m

/-! ### Nesting -/

variable {n : Nat} {f g : Scan γ}

theorem agreeBelow_multiplicandScan (h : Scan.AgreeBelow n f g) :
  Scan.AgreeBelow (n + 1) (multiplicandScan m f) (multiplicandScan m g)
  := (Scan.AgreeBelow.refl _ _).orElse h.parenthesised

theorem agreeBelow_chainScan (k : Level) (h : Scan.AgreeBelow n f g) :
  Scan.AgreeBelow n (chainScan m k f) (chainScan m k g)
  := h.bind fun first => ((Scan.AgreeBelow.refl n _).both h).foldl first m.join

theorem guarded_nestedScan (m : Meaning γ) :
  Scan.Guarded (nestedScan m)
  := fun _ _ _ h =>
    agreeBelow_chainScan .sums (agreeBelow_chainScan .products (agreeBelow_multiplicandScan h))

/-- Expressions are sums, and those in parentheses too. -/
theorem expressionScan_eq (m : Meaning γ) :
  expressionScan m = nestedScan m (expressionScan m)
  := Scan.fix_eq (guarded_nestedScan m)

/-- A chain is one of operands of its level. -/
theorem scan_chain (m : Meaning γ) (k : Level) :
  scan m (.chain k) = chainScan m k (scan m (.operand k))
  := by
  cases k with
  | products => rfl
  | sums => apply expressionScan_eq

/-! ### What the parsers denote -/

theorem denotes_number :
  Denotes number numberScan
  := ((denotes_several isDigit isDigit).filterMap _).spaced

theorem denotes_multiplicandOf {p : Parser Outcome} {f : Scan Outcome} (hp : Denotes p f) :
  Denotes (multiplicandOf p) (multiplicandScan .outcomes f)
  := (denotes_number.map _).orElse hp.parenthesised

theorem denotes_operator (s : String) (op : Operator) (s' : String) (op' : Operator) :
  Denotes (operator s op s' op') (choiceScan s op s' op')
  := ((denotes_token s).map _).orElse ((denotes_token s').map _)

theorem denotes_chainOf {q : Parser Operator} {p : Parser Outcome} {f : Scan Outcome}
    (hq : Denotes q (operatorScan k)) (hp : Denotes p f) :
  Denotes (chainOf q p) (chainScan .outcomes k f)
  := hp.bind fun first => (hq.both hp).foldl first Meaning.outcomes.join

theorem denotes_expression :
  Denotes expression (expressionScan .outcomes)
  := by
  apply Denotes.fix _ (guarded_nestedScan .outcomes)
  intro p f hp
  have haddend := denotes_chainOf (k := .products) (denotes_operator ..) (denotes_multiplicandOf hp)
  apply denotes_chainOf (k := .sums) (denotes_operator ..) haddend

/-! ### What the scans read -/

theorem not_isSpace_of_isDigit {d : Char} (h : isDigit d) :
  ¬isSpace d
  := by
  intro hd
  rcases isSpace_iff.mp hd with rfl | rfl | rfl | rfl <;> revert h <;> decide

theorem number?_eq_some {digits : String} {i : Int} :
  number? digits = some i
    ↔ (ofDigits digits.toList : Int) ≤ 2 ^ 63 - 1 ∧ ofDigits digits.toList = i
  := by
  have hgreatest : greatest = 2 ^ 63 - 1 := rfl
  simp only [number?, hgreatest, Option.ite_none_right_eq_some, Option.some.injEq]

/-- A number is read where one stands. -/
theorem numberScan_eq_some {i : Int} :
  numberScan.read xs = some (i, rest) ↔ ∃ digits, NumberAt xs digits rest ∧ ofDigits digits = i
  := by
  simp only [numberScan, Scan.spaced, Scan.filterMap_eq_some, Scan.several_eq_some, number?_eq_some]
  constructor
  · rintro ⟨s, ⟨d, ds, hs, hxs, hd, hds, hends⟩, hrange, rfl⟩
    have hgap := gap_dropWhile xs
    rw [hxs, ← hs] at hgap
    refine ⟨s.toList, ⟨hgap, ?_, ?_, hends, hrange⟩, rfl⟩
    · simp [hs]
    · simpa [hs] using ⟨hd, hds⟩
  · rintro ⟨digits, ⟨hgap, hne, hdigits, hends, hrange⟩, rfl⟩
    obtain ⟨d, ds, rfl⟩ := List.exists_cons_of_ne_nil hne
    obtain ⟨hd, hds⟩ := List.forall_mem_cons.mp hdigits
    use String.ofList (d :: ds)
    rw [String.toList_ofList]
    exact ⟨⟨d, ds, rfl, hgap.dropWhile_eq (not_isSpace_of_isDigit hd), hd, hds, hends⟩, hrange, rfl⟩

/-- No number begins with a parenthesis. -/
theorem NumberAt.not_parenthesis {digits : List Char} (h : NumberAt xs digits rest) :
  ¬Gap xs ('(' :: ys)
  := by
  obtain ⟨hgap, hne, hdigits, -, -⟩ := h
  obtain ⟨d, ds, rfl⟩ := List.exists_cons_of_ne_nil hne
  have hd := hdigits d List.mem_cons_self
  intro hgap'
  obtain ⟨rfl, -⟩ := hgap.unique hgap' (not_isSpace_of_isDigit hd) (by decide)
  exact absurd hd (by decide)

/-- The two kinds of multiplicands exclude each other. -/
theorem multiplicandScan_eq_some :
  (multiplicandScan m f).read xs = some (v, rest)
    ↔ (∃ digits, NumberAt xs digits rest ∧ m.number (ofDigits digits) = v)
      ∨ ∃ ys zs, Gap xs ('(' :: ys) ∧ f.read ys = some (v, zs) ∧ Gap zs (')' :: rest)
  := by
  rw [multiplicandScan, Scan.orElse_eq_some_of_exclusive]
  · simp only [Scan.map_eq_some, numberScan_eq_some, Scan.parenthesised_eq_some]
    grind
  · intro _ _ _ _ hnumber hparenthesised
    obtain ⟨i, hi, -⟩ := Scan.map_eq_some.mp hnumber
    obtain ⟨digits, hdigits, -⟩ := numberScan_eq_some.mp hi
    obtain ⟨ys, zs, hopening, -, -⟩ := Scan.parenthesised_eq_some.mp hparenthesised
    apply hdigits.not_parenthesis hopening

theorem Operator.not_isSpace_sign (op : Operator) :
  ¬isSpace op.sign
  := by cases op <;> decide

theorem Operator.sign_injective {op op' : Operator} (h : op.sign = op'.sign) :
  op = op'
  := by cases op <;> cases op' <;> simp [sign] at h ⊢

theorem choiceScan_eq_some {s s' : String} {op op' found : Operator} (hs : s.toList = [op.sign])
    (hs' : s'.toList = [op'.sign]) (hne : op ≠ op') :
  (choiceScan s op s' op').read xs = some (found, rest)
    ↔ (op = found ∨ op' = found) ∧ Gap xs (found.sign :: rest)
  := by
  have htoken {s : String} {op found : Operator} {rest : List Char} (hs : s.toList = [op.sign]) :
      ((Scan.token s).map fun _ => op).read xs = some (found, rest)
        ↔ op = found ∧ Gap xs (found.sign :: rest) := by
    rw [Scan.map_eq_some]
    simp only [Scan.token_eq_some hs op.not_isSpace_sign]
    grind
  rw [choiceScan, Scan.orElse_eq_some_of_exclusive, htoken hs, htoken hs', or_and_right]
  intro _ _ _ _ h h'
  obtain ⟨rfl, hgap⟩ := (htoken hs).mp h
  obtain ⟨rfl, hgap'⟩ := (htoken hs').mp h'
  apply hne
  apply Operator.sign_injective
  apply (hgap.unique hgap' (Operator.not_isSpace_sign _) (Operator.not_isSpace_sign _)).1

/-- An operator is read where its sign stands. -/
theorem operatorScan_eq_some {op : Operator} :
  (operatorScan k).read xs = some (op, rest) ↔ op.level = k ∧ Gap xs (op.sign :: rest)
  := by
  cases k with
  | products =>
      rw [operatorScan, choiceScan_eq_some rfl rfl (by decide)]
      cases op <;> simp [Operator.level]
  | sums =>
      rw [operatorScan, choiceScan_eq_some rfl rfl (by decide)]
      cases op <;> simp [Operator.level]

/-- One more operation is read where its sign and an operand stand. -/
theorem linkScan_eq_some {o : Scan γ} {op : Operator} :
  (linkScan k o).read xs = some ((op, v), rest)
    ↔ op.level = k ∧ ∃ ys, Gap xs (op.sign :: ys) ∧ o.read ys = some (v, rest)
  := by
  simp only [linkScan, Scan.both_eq_some, operatorScan_eq_some]
  grind

theorem linkScan_length_lt {o : Scan γ} {link : Operator × γ}
    (h : (linkScan k o).read xs = some (link, rest)) :
  rest.length < xs.length
  := by
  obtain ⟨-, ys, hgap, ho⟩ := linkScan_eq_some.mp h
  apply Nat.lt_of_le_of_lt (o.length_le ho) hgap.length_le

/-- After its first operand a chain goes on as long as there are operations. -/
theorem chainScan_of_operand {o : Scan γ} (h : o.read xs = some (v, ys)) :
  (chainScan m k o).read xs = some ((linkScan k o).gather m.join v ys)
  := by
  simp only [chainScan, Scan.bind, h]
  rfl

end Formulary.Arithmetic
