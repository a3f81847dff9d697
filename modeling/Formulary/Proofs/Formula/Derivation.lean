import Formulary.Proofs.Formula.Literal
import Formulary.Proofs.Term.Connective
import Mathlib.Logic.Relation

/-!
# Derivations of formulas

`Derives r xs t rest` says that by the rule `r` of the grammar a prefix of `xs` stands for the term
`t`, and `rest` comes after it.  A derivation may stop before it must: a chain of operands may end
although a connective with another operand follows, and an equation after its first side.

What is derived depends on the prefix only, and on `rest` at most in that a word ends where it does
(`Derives.detaches`).
-/

namespace Formulary

/-- The keyword of a connective. -/
def Connective.word : Connective → String
  | .and => "AND"
  | .or => "OR"

namespace Formula

/-- The rules of the grammar whose meanings are terms; a chain is one of operands of a
connective. -/
inductive Rule where
  | atom
  | equation
  | negation
  | chain (k : Connective)

/-- The rule of the operands of a connective. -/
def Rule.operand : Connective → Rule
  | .and => .negation
  | .or => .chain .and

/-- After any spaces comes a value, a truth value or the literal of a text, and then `rest`. -/
inductive ValueAt : List Char → Value → List Char → Prop where
  | true {xs rest : List Char} (word : WordAt xs "TRUE" rest) : ValueAt xs (.bool true) rest
  | false {xs rest : List Char} (word : WordAt xs "FALSE" rest) : ValueAt xs (.bool false) rest
  | text {xs ys rest : List Char} {s : String} (gap : Gap xs ('"' :: ys))
      (contents : Contents ys s.toList rest) : ValueAt xs (.str s) rest

/-- A number of negations in a row. -/
inductive Negations : Nat → List Char → List Char → Prop where
  | none {xs : List Char} : Negations 0 xs xs
  | more {k : Nat} {xs ys zs : List Char} (word : WordAt xs "NOT" ys) (rest : Negations k ys zs) :
      Negations (k + 1) xs zs

/-- A term after `k` negations, of which two cancel out. -/
def negated (k : Nat) (t : Term) : Term := if k % 2 = 0 then t else .not t

/-- What the rules of the grammar derive. -/
inductive Derives : Rule → List Char → Term → List Char → Prop where
  | value {xs rest : List Char} {v : Value} (h : ValueAt xs v rest) :
      Derives .atom xs (.value v) rest
  | identifier {xs rest : List Char} {name : String} (word : WordAt xs name rest)
      (free : name ∉ keywords) : Derives .atom xs (.identifier name) rest
  | parenthesised {xs ys zs rest : List Char} {t : Term} (opening : Gap xs ('(' :: ys))
      (inner : Derives (.chain .or) ys t zs) (closing : Gap zs (')' :: rest)) :
      Derives .atom xs t rest
  | side {xs rest : List Char} {t : Term} (h : Derives .atom xs t rest) :
      Derives .equation xs t rest
  | equation {xs ys zs rest : List Char} {left right : Term} (hl : Derives .atom xs left ys)
      (sign : Gap ys ('=' :: zs)) (hr : Derives .atom zs right rest) :
      Derives .equation xs (.equation left right) rest
  | negation {k : Nat} {xs ys rest : List Char} {t : Term} (negations : Negations k xs ys)
      (body : Derives .equation ys t rest) : Derives .negation xs (negated k t) rest
  | last {k : Connective} {xs rest : List Char} {t : Term}
      (operand : Derives (.operand k) xs t rest) : Derives (.chain k) xs t rest
  | link {k : Connective} {xs ys zs rest : List Char} {left right : Term}
      (operand : Derives (.operand k) xs left ys) (word : WordAt ys k.word zs)
      (chain : Derives (.chain k) zs right rest) : Derives (.chain k) xs (k.join left right) rest

/-! ### What is derived depends on the prefix -/

/-- From `xs` to `rest` leads a text for which `R` holds before any other rest as well, unless the
text ends with a word and the rest goes on with it. -/
def Detaches (R : List Char → List Char → Prop) (xs rest : List Char) : Prop :=
  ∃ p : List Char, p ≠ [] ∧ xs = p ++ rest ∧
    ∀ rest', (EndsWord rest → EndsWord rest') → R (p ++ rest') rest'

variable {R S : List Char → List Char → Prop} {xs ys rest : List Char}

theorem Detaches.imp (h : Detaches R xs rest) (hR : ∀ {xs ys}, R xs ys → S xs ys) :
  Detaches S xs rest
  := by
  obtain ⟨p, hp, rfl, hdetach⟩ := h
  use p, hp, rfl
  intro rest' hrest'
  apply hR (hdetach rest' hrest')

/-- The first of two texts is before the second one whatever comes after this. -/
theorem Detaches.comp (h : Detaches R xs ys) (h' : Detaches S ys rest) :
  Detaches (Relation.Comp R S) xs rest
  := by
  obtain ⟨p, hp, rfl, hR⟩ := h
  obtain ⟨q, hq, rfl, hS⟩ := h'
  obtain ⟨x, q, rfl⟩ := List.exists_cons_of_ne_nil hq
  use p ++ x :: q, by simp, by simp
  intro rest' hrest'
  use x :: q ++ rest'
  rw [List.append_assoc]
  constructor
  · apply hR
    intro hends
    apply hends
  · apply hS rest' hrest'

theorem detaches_wordAt {word : String} (h : WordAt xs word rest) :
  Detaches (WordAt · word ·) xs rest
  := by
  obtain ⟨⟨spaces, hspaces, rfl⟩, hword, hends⟩ := h
  use spaces ++ word.toList
  refine ⟨?_, by simp, ?_⟩
  · intro hnil
    rw [(List.append_eq_nil_iff.mp hnil).2] at hword
    apply hword
  · intro rest' hrest'
    exact ⟨⟨spaces, hspaces, by simp⟩, hword, hrest' hends⟩

theorem detaches_gap {x : Char} (h : Gap xs (x :: rest)) :
  Detaches (fun xs rest => Gap xs (x :: rest)) xs rest
  := by
  obtain ⟨spaces, hspaces, rfl⟩ := h
  use spaces ++ [x], by simp, by simp
  intro rest' _
  exact ⟨spaces, hspaces, by simp⟩

theorem detaches_contents {s : String} (h : Contents xs s.toList rest) :
  Detaches (Contents · s.toList ·) xs rest
  := by
  obtain ⟨rfl, hlast⟩ := contents_iff.mp h
  use Value.escapeQuotes s.toList ++ ['"'], by simp, by simp
  intro rest' _
  apply contents_iff.mpr
  exact ⟨by simp, hlast⟩

theorem detaches_valueAt {v : Value} (h : ValueAt xs v rest) :
  Detaches (ValueAt · v ·) xs rest
  := by
  cases h with
  | true word => apply (detaches_wordAt word).imp .true
  | false word => apply (detaches_wordAt word).imp .false
  | text gap contents =>
      apply ((detaches_gap gap).comp (detaches_contents contents)).imp
      rintro xs zs ⟨ys, hgap, hcontents⟩
      apply ValueAt.text hgap hcontents

/-- Negations and what comes after them detach together, since there may be none. -/
theorem detaches_negations {k : Nat} (h : Negations k xs ys) (hbody : Detaches R ys rest) :
  Detaches (Relation.Comp (Negations k) R) xs rest
  := by
  induction h with
  | none =>
      apply hbody.imp
      intro xs ys h
      use xs, .none
  | more word _ ih =>
      apply ((detaches_wordAt word).comp (ih hbody)).imp
      rintro xs zs ⟨ys, hword, ws, hnegations, h⟩
      use ws, .more hword hnegations

/-- What is derived stands in the text, and means the same before any other rest. -/
theorem Derives.detaches {r : Rule} {t : Term} (h : Derives r xs t rest) :
  Detaches (Derives r · t ·) xs rest
  := by
  induction h with
  | value h => apply (detaches_valueAt h).imp .value
  | identifier word free => apply (detaches_wordAt word).imp (.identifier · free)
  | parenthesised opening _ closing ih =>
      apply (((detaches_gap opening).comp ih).comp (detaches_gap closing)).imp
      rintro xs rest ⟨zs, ⟨ys, hopening, hinner⟩, hclosing⟩
      apply Derives.parenthesised hopening hinner hclosing
  | side _ ih => apply ih.imp .side
  | equation _ sign _ ihl ihr =>
      apply ((ihl.comp (detaches_gap sign)).comp ihr).imp
      rintro xs rest ⟨zs, ⟨ys, hl, hsign⟩, hr⟩
      apply Derives.equation hl hsign hr
  | negation negations _ ih =>
      apply (detaches_negations negations ih).imp
      rintro xs rest ⟨ys, hnegations, hbody⟩
      apply Derives.negation hnegations hbody
  | last _ ih => apply ih.imp .last
  | link _ word _ ih ihchain =>
      apply ((ih.comp (detaches_wordAt word)).comp ihchain).imp
      rintro xs rest ⟨zs, ⟨ys, hoperand, hword⟩, hchain⟩
      apply Derives.link hoperand hword hchain

/-! ### Composing derivations -/

theorem ValueAt.cons {x : Char} {v : Value} (hx : isSpace x) (h : ValueAt xs v rest) :
  ValueAt (x :: xs) v rest
  := by
  cases h with
  | true word => apply ValueAt.true (word.cons hx)
  | false word => apply ValueAt.false (word.cons hx)
  | text gap contents => apply ValueAt.text (gap.cons hx) contents

/-- One more space before what is derived makes no difference. -/
theorem Derives.cons {r : Rule} {x : Char} {t : Term} (hx : isSpace x) (h : Derives r xs t rest) :
  Derives r (x :: xs) t rest
  := by
  induction h with
  | value h => apply Derives.value (h.cons hx)
  | identifier word free => apply Derives.identifier (word.cons hx) free
  | parenthesised opening inner closing =>
      apply Derives.parenthesised (opening.cons hx) inner closing
  | side _ ih => apply Derives.side ih
  | equation _ sign hr ihl => apply Derives.equation ihl sign hr
  | negation negations body ih =>
      cases negations with
      | none => apply Derives.negation .none ih
      | more word rest => apply Derives.negation (.more (word.cons hx) rest) body
  | last _ ih => apply Derives.last ih
  | link _ word chain ih => apply Derives.link ih word chain

/-- A negation is a conjunction. -/
theorem Derives.conjunction {t : Term} (h : Derives .negation xs t rest) :
  Derives (.chain .and) xs t rest
  := Derives.last (k := .and) h

/-- A conjunction is a formula. -/
theorem Derives.disjunction {t : Term} (h : Derives (.chain .and) xs t rest) :
  Derives (.chain .or) xs t rest
  := Derives.last (k := .or) h

/-- An equation is an operand of either connective. -/
theorem Derives.operand {t : Term} (k : Connective) (h : Derives .equation xs t rest) :
  Derives (.operand k) xs t rest
  := by
  have hnegation : Derives .negation xs (negated 0 t) rest := .negation .none h
  cases k with
  | and => apply hnegation
  | or => apply hnegation.conjunction

/-- An equation is a formula. -/
theorem Derives.formula {t : Term} (h : Derives .equation xs t rest) :
  Derives (.chain .or) xs t rest
  := (h.operand .or).disjunction

/-- A negated equation is a formula. -/
theorem Derives.not {t : Term} (word : WordAt xs "NOT" ys) (h : Derives .equation ys t rest) :
  Derives (.chain .or) xs (.not t) rest
  := by
  have hnegation : Derives .negation xs (negated 1 t) rest := .negation (.more word .none) h
  apply hnegation.conjunction.disjunction

/-- Two equations with a connective between them are a formula. -/
theorem Derives.join {k : Connective} {zs : List Char} {left right : Term}
    (hl : Derives .equation xs left ys) (word : WordAt ys k.word zs)
    (hr : Derives .equation zs right rest) :
  Derives (.chain .or) xs (k.join left right) rest
  := by
  have hchain : Derives (.chain k) xs (k.join left right) rest :=
    Derives.link (hl.operand k) word (.last (hr.operand k))
  cases k with
  | and => apply hchain.disjunction
  | or => apply hchain

/-! ### How an equation begins -/

theorem ValueAt.word_eq {v : Value} {word : String} (h : ValueAt xs v ys)
    (hword : WordAt xs word rest) :
  word = "TRUE" ∨ word = "FALSE"
  := by
  cases h with
  | true h => exact .inl (hword.unique h).1
  | false h => exact .inr (hword.unique h).1
  | text gap _ =>
      exfalso
      apply hword.not_gap _ _ gap <;> decide

theorem ValueAt.not_gap {v : Value} (h : ValueAt xs v ys) :
  ¬Gap xs ('(' :: rest)
  := by
  intro hgap
  cases h with
  | true h => apply h.not_gap _ _ hgap <;> decide
  | false h => apply h.not_gap _ _ hgap <;> decide
  | text gap _ => exact absurd (gap.unique hgap (by decide) (by decide)).1 (by decide)

/-- No atom begins with a negation. -/
theorem Derives.not_wordAt_of_atom {t : Term} (h : Derives .atom xs t rest) :
  ¬WordAt xs "NOT" ys
  := by
  intro hnot
  cases h with
  | value h => exact absurd (h.word_eq hnot) (by decide)
  | identifier word free =>
      obtain ⟨rfl, -⟩ := word.unique hnot
      apply free
      decide
  | parenthesised opening _ _ => apply hnot.not_gap _ _ opening <;> decide

/-- No equation begins with a negation, so that all the negations before it are counted. -/
theorem Derives.not_wordAt_of_equation {t : Term} (h : Derives .equation xs t rest) :
  ¬WordAt xs "NOT" ys
  := by
  cases h with
  | side h => apply h.not_wordAt_of_atom
  | equation hl _ _ => apply hl.not_wordAt_of_atom

end Formula

end Formulary
