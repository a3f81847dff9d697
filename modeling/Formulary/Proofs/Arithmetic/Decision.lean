import Formulary.Proofs.Arithmetic.Scanning
import Formulary.Proofs.Reading

/-!
# The parser of expressions decides its grammar and evaluates

What the scan of expressions reads is what a derived tree means (`sound_expressionScan`).  Where a
tree is derived by a rule, the scan of the rule gets past it: a chain has then gathered the tree and
looks for the next operation (`Derives.passes`).  Hence the scan reads the tree of the longest part
of a text from which any is derived, and there is only one (`expressionScan_eq_some`).

The scan that evaluates reads no more and no less than the one that builds the tree, whatever faults
there are.
-/

namespace Formulary.Arithmetic

open Formulary.Parser

variable {γ : Type} {m : Meaning γ} {xs ys rest : List Char} {k : Level} {r : Rule} {t : Tree}
  {v : γ}

/-! ### Soundness -/

/-- What the scan reads is what a tree means that the rule derives. -/
def Sound (m : Meaning γ) (r : Rule) (f : Scan γ) : Prop :=
  ∀ ⦃xs : List Char⦄ ⦃v : γ⦄ ⦃rest : List Char⦄,
    f.read xs = some (v, rest) → ∃ t, Derives r xs t rest ∧ m.of t = v

theorem Sound.multiplicand {f : Scan γ} (hf : Sound m (.chain .sums) f) :
  Sound m .multiplicand (multiplicandScan m f)
  := by
  intro xs v rest h
  obtain ⟨digits, hdigits, rfl⟩ | ⟨ys, zs, hopening, hinner, hclosing⟩ :=
    multiplicandScan_eq_some.mp h
  · use .number (ofDigits digits), .number hdigits
    rfl
  · obtain ⟨t, ht, rfl⟩ := hf hinner
    use t, .parenthesised hopening ht hclosing

/-- What is gathered on top of a tree is what a greater tree means. -/
theorem Sound.gather {o : Scan γ} (ho : Sound m (.operand k) o) (ht : Derives (.chain k) xs t ys)
    (hv : m.of t = v) :
  ∃ t', Derives (.chain k) xs t' ((linkScan k o).gather m.join v ys).2
    ∧ m.of t' = ((linkScan k o).gather m.join v ys).1
  := by
  have hmore {t : Tree} {v : γ} {ys rest : List Char} {link : Operator × γ}
      (ht : Derives (.chain k) xs t ys) (hv : m.of t = v)
      (h : (linkScan k o).read ys = some (link, rest)) :
      ∃ t', Derives (.chain k) xs t' rest ∧ m.of t' = m.join v link := by
    obtain ⟨op, _⟩ := link
    obtain ⟨hlevel, zs, hsign, hoperand⟩ := linkScan_eq_some.mp h
    obtain ⟨right, hright, rfl⟩ := ho hoperand
    use .operation op t right, .more ht hlevel hsign hright
    rw [Meaning.of, hv]
    rfl
  fun_induction Scan.gather (linkScan k o) m.join v ys generalizing t with
  | case1 => use t
  | case2 v ys link rest h hlt ih =>
      obtain ⟨t', ht', hv'⟩ := hmore ht hv h
      apply ih ht' hv'
  | case3 v ys link rest h hlt => apply hmore ht hv h

theorem Sound.chain {o : Scan γ} (ho : Sound m (.operand k) o) :
  Sound m (.chain k) (chainScan m k o)
  := by
  intro xs v rest h
  obtain ⟨first, ys, hfirst, hgather⟩ := Scan.bind_eq_some.mp h
  obtain ⟨t, ht, hv⟩ := ho hfirst
  obtain ⟨t', ht', hv'⟩ := ho.gather (.first ht) hv
  obtain heq : (linkScan k o).gather m.join first ys = (v, rest) := Option.some.inj hgather
  rw [heq] at ht' hv'
  use t'

theorem sound_expressionScan (m : Meaning γ) :
  Sound m (.chain .sums) (expressionScan m)
  := by
  intro xs v rest h
  apply Scan.fix_induction (P := fun xs v rest =>
    ∃ t, Derives (.chain .sums) xs t rest ∧ m.of t = v) _ h
  intro f hf
  have hsound : Sound m (.chain .sums) f := @fun _ _ _ => hf
  have haddend : Sound m (.chain .products) (chainScan m .products (multiplicandScan m f)) :=
    Sound.chain hsound.multiplicand
  apply Sound.chain haddend

/-! ### Completeness -/

/-- After a derivation by the rule the text goes on with an operator that the rule can use. -/
inductive Continues : Rule → List Char → Prop where
  | operand {k : Level} {xs : List Char} (h : Continues (.operand k) xs) : Continues (.chain k) xs
  | sign {k : Level} {op : Operator} {xs ys : List Char} (level : op.level = k)
      (gap : Gap xs (op.sign :: ys)) : Continues (.chain k) xs

theorem not_continues_multiplicand :
  ¬Continues .multiplicand xs
  := by
  intro h
  cases h

/-- No operand goes on with an operator of its chain. -/
theorem Continues.not_sign {op : Operator} (h : Continues (.operand k) xs) (hk : op.level = k) :
  ¬Gap xs (op.sign :: ys)
  := by
  intro hgap
  cases k with
  | products => exact not_continues_multiplicand h
  | sums =>
      have h : Continues (.chain .products) xs := h
      cases h with
      | operand h => exact not_continues_multiplicand h
      | @sign _ op' _ _ level gap =>
          obtain ⟨hsign, -⟩ := gap.unique hgap op'.not_isSpace_sign op.not_isSpace_sign
          obtain rfl := Operator.sign_injective hsign
          rw [level] at hk
          cases hk

/-- No rule goes on with a closing parenthesis. -/
theorem Continues.not_parenthesis (h : Continues r xs) :
  ¬Gap xs (')' :: ys)
  := by
  intro hgap
  induction h with
  | operand _ ih => apply ih hgap
  | @sign _ op _ _ _ gap =>
      obtain ⟨hsign, -⟩ := gap.unique hgap op.not_isSpace_sign (by decide)
      cases op <;> exact absurd hsign (by decide)

/-- The text is read as far as a derivation goes, or farther if it can be used. -/
inductive Reaches (r : Rule) (v : γ) (rest : List Char) : Option (γ × List Char) → Prop where
  | exact : Reaches r v rest (some (v, rest))
  | farther {v' : γ} {rest' : List Char} (length_lt : rest'.length < rest.length)
      (continues : Continues r rest) : Reaches r v rest (some (v', rest'))

/-- What is read where a tree is derived by the rule that means `v`.  A chain gathers more on top of
`v`, unless its last operand has gone on farther. -/
inductive Passes (m : Meaning γ) : Rule → γ → List Char → Option (γ × List Char) → Prop where
  | multiplicand {v : γ} {rest : List Char} : Passes m .multiplicand v rest (some (v, rest))
  | chain {k : Level} {v : γ} {rest : List Char} :
      Passes m (.chain k) v rest
        (some ((linkScan k (scan m (.operand k))).gather m.join v rest))
  | beyond {k : Level} {v v' : γ} {rest rest' : List Char}
      (length_lt : rest'.length < rest.length) (continues : Continues (.operand k) rest) :
      Passes m (.chain k) v rest (some (v', rest'))

variable {found : Option (γ × List Char)}

theorem Reaches.eq_of_not (h : Reaches r v rest found) (hr : ¬Continues r rest) :
  found = some (v, rest)
  := by
  cases h with
  | exact => rfl
  | farther _ continues => exact absurd continues hr

theorem Reaches.exists_eq (h : Reaches r v rest found) :
  ∃ w ys, found = some (w, ys)
  := by
  cases h with
  | exact => use v, rest
  | @farther w ys _ _ => use w, ys

theorem Reaches.length_le {w : γ} (h : Reaches r v rest (some (w, ys))) :
  ys.length ≤ rest.length
  := by
  cases h with
  | exact => apply Nat.le_refl
  | farther length_lt _ => apply Nat.le_of_lt length_lt

theorem Passes.of_eq (h : found = some (v, rest)) :
  Passes m .multiplicand v rest found
  := by
  rw [h]
  apply Passes.multiplicand

/-- A chain gathers more only where there is an operator. -/
theorem Passes.reaches (h : Passes m r v rest found) :
  Reaches r v rest found
  := by
  cases h with
  | multiplicand => apply Reaches.exact
  | @chain k =>
      cases hlink : (linkScan k (scan m (.operand k))).read rest with
      | none =>
          rw [Scan.gather_of_none hlink]
          apply Reaches.exact
      | some found =>
          obtain ⟨⟨op, right⟩, ys⟩ := found
          obtain ⟨hlevel, zs, hsign, -⟩ := linkScan_eq_some.mp hlink
          have hlt := linkScan_length_lt hlink
          rw [Scan.gather_of_some hlink hlt]
          apply Reaches.farther _ (.sign hlevel hsign)
          apply Nat.lt_of_le_of_lt (Scan.gather_suffix ..).length_le hlt
  | beyond length_lt continues => apply Reaches.farther length_lt (.operand continues)

/-- A chain gathers on from the operand that it has read. -/
theorem Reaches.passes {w : γ} (φ : γ → γ) (h : Reaches (.operand k) v rest (some (w, ys))) :
  Passes m (.chain k) (φ v) rest
    (some ((linkScan k (scan m (.operand k))).gather m.join (φ w) ys))
  := by
  cases h with
  | exact => apply Passes.chain
  | farther length_lt continues =>
      apply Passes.beyond _ continues
      apply Nat.lt_of_le_of_lt (Scan.gather_suffix ..).length_le length_lt

/-- The first operand of a chain is the chain so far. -/
theorem Passes.first (h : Passes m (.operand k) v rest ((scan m (.operand k)).read xs)) :
  Passes m (.chain k) v rest ((scan m (.chain k)).read xs)
  := by
  have hreaches := h.reaches
  obtain ⟨w, ys, hread⟩ := hreaches.exists_eq
  rw [scan_chain, chainScan_of_operand hread]
  rw [hread] at hreaches
  apply hreaches.passes id

/-- An operation is gathered on top of the chain before it. -/
theorem Passes.more {op : Operator} {zs : List Char} {left right : γ}
    (hl : Passes m (.chain k) left ys ((scan m (.chain k)).read xs)) (hk : op.level = k)
    (hsign : Gap ys (op.sign :: zs))
    (hr : Passes m (.operand k) right rest ((scan m (.operand k)).read zs)) :
  Passes m (.chain k) (m.operation op left right) rest ((scan m (.chain k)).read xs)
  := by
  generalize (scan m (.chain k)).read xs = found at hl ⊢
  cases hl with
  | beyond _ continues => exact absurd hsign (continues.not_sign hk)
  | chain =>
      have hreaches := hr.reaches
      obtain ⟨w, ws, hread⟩ := hreaches.exists_eq
      have hlink := linkScan_eq_some.mpr ⟨hk, zs, hsign, hread⟩
      rw [Scan.gather_of_some hlink (linkScan_length_lt hlink)]
      rw [hread] at hreaches
      apply hreaches.passes (m.operation op left)

/-- Where a tree is derived, the scan of the rule gets past it. -/
theorem Derives.passes (m : Meaning γ) (h : Derives r xs t rest) :
  Passes m r (m.of t) rest ((scan m r).read xs)
  := by
  induction h with
  | number number =>
      apply Passes.of_eq
      apply multiplicandScan_eq_some.mpr
      exact .inl ⟨_, number, rfl⟩
  | parenthesised opening _ closing ih =>
      have hinner := ih.reaches.eq_of_not fun h => h.not_parenthesis closing
      apply Passes.of_eq
      apply multiplicandScan_eq_some.mpr
      exact .inr ⟨_, _, opening, hinner, closing⟩
  | first _ ih => apply ih.first
  | more _ level sign _ ihl ihr => apply ihl.more level sign ihr

/-! ### Decision -/

/-- The tree is derived from the longest part of the text from which any is. -/
structure Longest (text : List Char) (t : Tree) (rest : List Char) : Prop where
  derives : Derives (.chain .sums) text t rest
  length_le : ∀ t' rest', Derives (.chain .sums) text t' rest' → rest.length ≤ rest'.length

/-- The longest expression is read, and nothing else is. -/
theorem expressionScan_eq_some :
  (expressionScan m).read xs = some (v, rest) ↔ ∃ t, Longest xs t rest ∧ m.of t = v
  := by
  constructor
  · intro h
    obtain ⟨t, ht, rfl⟩ := sound_expressionScan m h
    use t
    refine ⟨⟨ht, ?_⟩, rfl⟩
    intro t' rest' ht'
    have hreaches := (ht'.passes m).reaches
    rw [scan, h] at hreaches
    apply hreaches.length_le
  · rintro ⟨t, ⟨ht, hlongest⟩, rfl⟩
    have hreaches := (ht.passes m).reaches
    rw [scan] at hreaches
    generalize hread : (expressionScan m).read xs = found at hreaches
    cases hreaches with
    | exact => rfl
    | farther length_lt _ =>
        obtain ⟨t', ht', -⟩ := sound_expressionScan m hread
        exact absurd length_lt (Nat.not_lt.mpr (hlongest t' _ ht'))

/-- There is at most one longest expression. -/
theorem Longest.unique {t' : Tree} {rest' : List Char} (h : Longest xs t rest)
    (h' : Longest xs t' rest') :
  t = t' ∧ rest = rest'
  := by
  have hread {u : Tree} {zs : List Char} (h : Longest xs u zs) :
      (expressionScan .trees).read xs = some (u, zs) :=
    expressionScan_eq_some.mpr ⟨u, h, Meaning.trees_of u⟩
  apply Prod.mk.inj
  apply Option.some.inj
  rw [← hread h, hread h']

/-- If any expression is derived, there is a longest one. -/
theorem Derives.exists_longest (h : Derives (.chain .sums) xs t rest) :
  ∃ t rest, Longest xs t rest
  := by
  obtain ⟨u, ys, hread⟩ := (h.passes .trees).reaches.exists_eq
  obtain ⟨t', hlongest, -⟩ := expressionScan_eq_some.mp hread
  use t', ys

theorem Longest.read_outcomes (h : Longest xs t rest) :
  (expressionScan .outcomes).read xs = some (t.outcome, rest)
  := expressionScan_eq_some.mpr ⟨t, h, Meaning.outcomes_of t⟩

/-! ### Evaluation -/

/-- The result of an evaluation is what the scan that evaluates has read. -/
theorem evaluate_eq (text : String) :
  (evaluate text).1
    = match (expressionScan .outcomes).read text.toList with
      | none => .error .unparseable
      | some (.error fault, _) => .error (.arithmetic fault)
      | some (.ok n, rest) => .ok ⟨n, String.ofList (rest.dropWhile isSpace)⟩
  := by
  have hspells := Tape.ofText_spells text
  have hstands := Tape.ofText_stands text
  unfold evaluate
  generalize Tape.ofText text = opened at hspells hstands ⊢
  obtain ⟨start, tape⟩ := opened
  have hfinish := finish_eq denotes_expression hspells hstands
  simp only
  generalize finish (expression.run start tape) = outcome at hfinish ⊢
  obtain ⟨result, tape'⟩ := outcome
  subst hfinish
  cases (expressionScan .outcomes).read text.toList with
  | none => rfl
  | some found => obtain ⟨_ | _, rest⟩ := found <;> rfl

/-- An evaluation reads the longest expression that a text begins with, which depends on the grammar
alone, and fails to read only where there is none.  It comes to the exact value of the expression if
no step divides by zero or leaves the range, and otherwise to the fault of the first step that
does. -/
theorem evaluate_decides (text : String) :
  ((evaluate text).1 = .error .unparseable
      ↔ ¬∃ t rest, Derives (.chain .sums) text.toList t rest)
    ∧ ((∃ t rest, Derives (.chain .sums) text.toList t rest) →
        ∃ t rest, Longest text.toList t rest
          ∧ ∀ t' rest', Longest text.toList t' rest' → t = t' ∧ rest = rest')
    ∧ ∀ t rest, Longest text.toList t rest →
        expression.onText text = some (t.outcome, String.ofList rest)
          ∧ (∀ reading, (evaluate text).1 = .ok reading
              ↔ (∀ s ∈ t.steps, ¬s.DividesByZero ∧ s.InRange)
                ∧ reading = ⟨t.value, String.ofList (rest.dropWhile isSpace)⟩)
          ∧ ∀ fault, (evaluate text).1 = .error (.arithmetic fault)
              ↔ ∃ before s after, t.steps = before ++ s :: after
                ∧ (∀ s' ∈ before, ¬s'.DividesByZero ∧ s'.InRange)
                ∧ (s.DividesByZero ∧ fault = .divisionByZero
                  ∨ ¬s.DividesByZero ∧ ¬s.InRange ∧ fault = .overflow)
  := by
  refine ⟨?_, ?_, ?_⟩
  · rw [evaluate_eq]
    constructor
    · rintro hnone ⟨t, rest, h⟩
      obtain ⟨t', rest', hlongest⟩ := h.exists_longest
      rw [hlongest.read_outcomes] at hnone
      cases houtcome : t'.outcome <;> rw [houtcome] at hnone <;> cases hnone
    · intro hnone
      cases hread : (expressionScan .outcomes).read text.toList with
      | none => rfl
      | some found =>
          obtain ⟨t, hlongest, -⟩ := expressionScan_eq_some.mp hread
          exact absurd ⟨t, found.2, hlongest.derives⟩ hnone
  · rintro ⟨t, rest, h⟩
    obtain ⟨t', rest', hlongest⟩ := h.exists_longest
    use t', rest', hlongest
    intro _ _ h'
    apply hlongest.unique h'
  · intro t rest h
    rw [denotes_expression.onText_eq, evaluate_eq, h.read_outcomes]
    refine ⟨rfl, ?_, ?_⟩
    · rintro ⟨n, remaining⟩
      simp only [Reading.mk.injEq]
      rw [← and_assoc, ← Tree.outcome_eq_ok]
      cases t.outcome <;> simp [eq_comm]
    · intro fault
      rw [← Tree.outcome_eq_error]
      cases t.outcome <;> simp

/-- Of an overflow and a division by zero in a later operand, the overflow is reported. -/
theorem evaluate_decides_first_fault :
  let text := "9223372036854775807 + 1 - 1/0"
  let t : Tree := .operation .minus
    (.operation .plus (.number 9223372036854775807) (.number 1))
    (.operation .over (.number 1) (.number 0))
  Longest text.toList t [] ∧ (evaluate text).1 = .error (.arithmetic .overflow)
  := by
  intro text t
  have hgap {xs ys : List Char} (spaces : List Char) (hxs : xs = spaces ++ ys)
      (hspaces : spaces.all isSpace) : Gap xs ys := ⟨spaces, List.all_eq_true.mp hspaces, hxs⟩
  have hnumber {xs rest : List Char} (spaces digits : List Char)
      (hxs : xs = spaces ++ (digits ++ rest)) (hspaces : spaces.all isSpace) (hne : digits ≠ [])
      (hdigits : digits.all isDigit) (hends : rest.head?.all fun x => !isDigit x)
      (hrange : (ofDigits digits : Int) ≤ 2 ^ 63 - 1) :
      Derives .multiplicand xs (.number (ofDigits digits)) rest :=
    .number ⟨hgap spaces hxs hspaces, hne, List.all_eq_true.mp hdigits,
      by simpa [Option.all_eq_true] using hends, hrange⟩
  have hgreatest : Derives .multiplicand text.toList (.number 9223372036854775807)
      " + 1 - 1/0".toList := by
    apply hnumber [] "9223372036854775807".toList <;> decide
  have hone : Derives .multiplicand " 1 - 1/0".toList (.number 1) " - 1/0".toList := by
    apply hnumber [' '] ['1'] <;> decide
  have hone' : Derives .multiplicand " 1/0".toList (.number 1) "/0".toList := by
    apply hnumber [' '] ['1'] <;> decide
  have hzero : Derives .multiplicand "0".toList (.number 0) [] := by
    apply hnumber [] ['0'] <;> decide
  have hsum : Derives (.chain .sums) text.toList
      (.operation .plus (.number 9223372036854775807) (.number 1)) " - 1/0".toList :=
    .more (.first (.first hgreatest)) rfl (hgap [' '] (by decide) (by decide)) (.first hone)
  have hquotient : Derives (.chain .products) " 1/0".toList
      (.operation .over (.number 1) (.number 0)) [] :=
    .more (.first hone') rfl (hgap [] (by decide) (by decide)) hzero
  have hlongest : Longest text.toList t [] := by
    constructor
    · apply Derives.more hsum rfl (hgap [' '] (by decide) (by decide)) hquotient
    · intro _ _ _
      apply Nat.zero_le
  use hlongest
  obtain ⟨-, -, hevaluate⟩ := evaluate_decides text
  obtain ⟨-, -, herror⟩ := hevaluate t [] hlongest
  apply (herror .overflow).mpr
  refine ⟨[], ⟨.plus, 9223372036854775807, 1⟩, _, rfl, by simp, .inr ⟨?_, ?_, rfl⟩⟩ <;> decide

end Formulary.Arithmetic
