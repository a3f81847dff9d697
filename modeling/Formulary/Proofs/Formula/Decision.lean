import Formulary.Proofs.Formula.Scanning

/-!
# The parser of formulas decides its grammar

What the scan of formulas reads is derived by the grammar (`sound_formulaScan`).  Where anything is
derived by a rule, the scan of the rule reads at least as far, and it reads farther only where the
text goes on with a token that the rule can use (`Derives.reads`).  No such token can come where a
derivation needs another one: before a closing parenthesis, an equality sign or the connective of an
enclosing chain.  This is why committed choice loses nothing.
-/

namespace Formulary.Formula

open Formulary.Parser

variable {xs ys rest : List Char} {t : Term} {r : Rule}

/-! ### Soundness -/

/-- What the scan reads is derived by the rule. -/
def Sound (r : Rule) (f : Scan Term) : Prop :=
  ∀ ⦃xs : List Char⦄ ⦃t : Term⦄ ⦃rest : List Char⦄, f.read xs = some (t, rest) → Derives r xs t rest

theorem Sound.atom {f : Scan Term} (hf : Sound (.chain .or) f) :
  Sound .atom (atomScan f)
  := by
  intro xs t rest h
  obtain ⟨v, hv, rfl⟩ | ⟨name, ⟨hword, hfree⟩, rfl⟩ | ⟨ys, zs, hopening, hinner, hclosing⟩ :=
    atomScan_eq_some.mp h
  · apply Derives.value hv
  · apply Derives.identifier hword hfree
  · apply Derives.parenthesised hopening (hf hinner) hclosing

theorem Sound.equation {a : Scan Term} (ha : Sound .atom a) :
  Sound .equation (equationScan a)
  := by
  intro xs t rest h
  obtain ⟨left, right, ys, hl, hside, rfl⟩ | ⟨hl, -⟩ := equationScan_eq_some.mp h
  · obtain ⟨zs, hsign, hr⟩ := otherSideScan_eq_some.mp hside
    apply Derives.equation (ha hl) hsign (ha hr)
  · apply Derives.side (ha hl)

theorem Sound.negation {e : Scan Term} (he : Sound .equation e) :
  Sound .negation (negationScan e)
  := by
  intro xs t rest h
  obtain ⟨n, ys, u, hn, hu, rfl⟩ := negations_of_negationScan h
  apply Derives.negation hn (he hu)

theorem Sound.chain (k : Connective) {o : Scan Term} (ho : Sound (.operand k) o) :
  Sound (.chain k) (chainScan k o)
  := by
  intro xs t rest h
  -- what comes after a connective is a shorter chain
  induction hn : xs.length using Nat.strong_induction_on generalizing xs t with
  | h n ih =>
      obtain ⟨left, ys, hl⟩ := exists_operand_of_chainScan h
      cases hlink : (linkScan k o).read ys with
      | none =>
          rw [chainScan_of_last hl hlink] at h
          obtain ⟨rfl, rfl⟩ := Prod.mk.inj (Option.some.inj h)
          apply Derives.last (ho hl)
      | some found =>
          obtain ⟨zs, hword, hnext⟩ := linkScan_eq_some.mp hlink
          rw [chainScan_of_link hl hword hnext] at h
          obtain ⟨⟨right, _⟩, hchain, heq⟩ := Option.map_eq_some_iff.mp h
          obtain ⟨rfl, rfl⟩ := Prod.mk.inj heq
          have hlt : zs.length < n := by
            rw [← hn]
            apply Nat.lt_of_lt_of_le hword.length_lt (o.length_le hl)
          apply Derives.link (ho hl) hword (ih zs.length hlt hchain rfl)

theorem Sound.conjunction {f : Scan Term} (hf : Sound (.chain .or) f) :
  Sound (.chain .and) (conjunctionScan f)
  := Sound.chain .and hf.atom.equation.negation

theorem sound_formulaScan :
  Sound (.chain .or) formulaScan
  := by
  intro xs t rest h
  apply Scan.fix_induction (P := Derives (.chain .or)) _ h
  intro f hf
  have hsound : Sound (.chain .or) f := @fun _ _ _ => hf
  apply Sound.chain .or hsound.conjunction

/-! ### Completeness -/

/-- After a derivation by the rule the text goes on with a token that the rule can use. -/
inductive Continues : Rule → List Char → Prop where
  | sign {xs ys : List Char} (gap : Gap xs ('=' :: ys)) : Continues .equation xs
  | body {xs : List Char} (h : Continues .equation xs) : Continues .negation xs
  | operand {k : Connective} {xs : List Char} (h : Continues (.operand k) xs) :
      Continues (.chain k) xs
  | word {k : Connective} {xs ys : List Char} (word : WordAt xs k.word ys) :
      Continues (.chain k) xs

/-- The text is read as far as a derivation of `t` goes, or farther if it can be used. -/
inductive Reaches (r : Rule) (t : Term) (rest : List Char) : Option (Term × List Char) → Prop where
  | exact : Reaches r t rest (some (t, rest))
  | farther {t' : Term} {rest' : List Char} (length_lt : rest'.length < rest.length)
      (continues : Continues r rest) : Reaches r t rest (some (t', rest'))

variable {found : Option (Term × List Char)}

theorem Reaches.of_eq (h : found = some (t, rest)) :
  Reaches r t rest found
  := by
  rw [h]
  apply Reaches.exact

theorem Reaches.eq_of_not (h : Reaches r t rest found) (hr : ¬Continues r rest) :
  found = some (t, rest)
  := by
  cases h with
  | exact => rfl
  | farther _ continues => exact absurd continues hr

theorem not_continues_atom :
  ¬Continues .atom xs
  := by
  intro h
  cases h

/-- No negation goes on with a word. -/
theorem Continues.not_word_of_negation {word : String} (h : Continues .negation xs) :
  ¬WordAt xs word ys
  := by
  obtain ⟨⟩ | ⟨⟨gap⟩⟩ := h
  intro hword
  apply hword.not_gap _ _ gap <;> decide

/-- No operand goes on with the connective of its chain. -/
theorem Continues.not_word {k : Connective} (h : Continues (.operand k) xs) :
  ¬WordAt xs k.word ys
  := by
  cases k with
  | and => apply Continues.not_word_of_negation h
  | or =>
      have h : Continues (.chain .and) xs := h
      cases h with
      | operand h => apply Continues.not_word_of_negation h
      | word word =>
          intro hword
          exact absurd (word.unique hword).1 (by decide)

/-- No rule goes on with a closing parenthesis. -/
theorem Continues.not_parenthesis (h : Continues r xs) :
  ¬Gap xs (')' :: ys)
  := by
  intro hgap
  induction h with
  | sign gap => exact absurd (gap.unique hgap (by decide) (by decide)).1 (by decide)
  | body _ ih => apply ih hgap
  | operand _ ih => apply ih hgap
  | word word => apply word.not_gap _ _ hgap <;> decide

/-- No rule goes on where nothing does. -/
theorem not_continues_nil :
  ¬Continues r []
  := by
  intro h
  generalize hxs : ([] : List Char) = xs at h
  induction h with
  | sign gap =>
      subst hxs
      cases gap.length_le
  | body _ ih => apply ih hxs
  | operand _ ih => apply ih hxs
  | word word =>
      subst hxs
      cases word.length_lt

/-- The other side of an equation is read farther than the first side. -/
theorem reads_side (h : (scan .atom).read xs = some (t, rest)) :
  Reaches .equation t rest ((scan .equation).read xs)
  := by
  cases hside : (otherSideScan (scan .atom)).read rest with
  | none =>
      apply Reaches.of_eq
      apply equationScan_eq_some.mpr
      exact .inr ⟨h, hside⟩
  | some found =>
      obtain ⟨ys, gap, hright⟩ := otherSideScan_eq_some.mp hside
      have hread : (scan .equation).read xs = some (.equation t found.1, found.2) :=
        equationScan_eq_some.mpr (.inl ⟨t, found.1, rest, h, hside, rfl⟩)
      rw [hread]
      apply Reaches.farther _ (.sign gap)
      apply Nat.lt_of_le_of_lt (Scan.length_le _ hright) gap.length_le

theorem Reaches.negation {n : Nat} (negations : Negations n xs ys)
    (hmax : ∀ zs, ¬WordAt ys "NOT" zs) (h : Reaches .equation t rest ((scan .equation).read ys)) :
  Reaches .negation (negated n t) rest ((scan .negation).read xs)
  := by
  generalize hread : (scan .equation).read ys = found at h
  cases h with
  | exact =>
      apply Reaches.of_eq
      apply negationScan_of_negations negations hmax hread
  | @farther u rest' length_lt continues =>
      have hnegation : (scan .negation).read xs = some (negated n u, rest') :=
        negationScan_of_negations negations hmax hread
      rw [hnegation]
      apply Reaches.farther length_lt (.body continues)

/-- A chain is read farther than an operand with which it could end. -/
theorem reads_last {k : Connective} (h : (scan (.operand k)).read xs = some (t, rest)) :
  Reaches (.chain k) t rest ((scan (.chain k)).read xs)
  := by
  rw [scan_chain]
  cases hlink : (linkScan k (scan (.operand k))).read rest with
  | none =>
      apply Reaches.of_eq
      apply chainScan_of_last h hlink
  | some found =>
      obtain ⟨zs, hword, hnext⟩ := linkScan_eq_some.mp hlink
      obtain ⟨right, rest', hchain, hle⟩ := exists_chainScan (k := k) hnext
      rw [chainScan_of_link h hword hnext, hchain]
      apply Reaches.farther _ (.word hword)
      apply Nat.lt_of_le_of_lt hle
      apply Nat.lt_of_le_of_lt (Scan.length_le _ hnext) hword.length_lt

theorem Reaches.last {k : Connective}
    (h : Reaches (.operand k) t rest ((scan (.operand k)).read xs)) :
  Reaches (.chain k) t rest ((scan (.chain k)).read xs)
  := by
  generalize hread : (scan (.operand k)).read xs = found at h
  cases h with
  | exact => apply reads_last hread
  | farther length_lt continues =>
      obtain ⟨u, rest', hchain, hle⟩ := exists_chainScan (k := k) hread
      rw [scan_chain, hchain]
      apply Reaches.farther (Nat.lt_of_le_of_lt hle length_lt) (.operand continues)

theorem Reaches.link {k : Connective} {zs : List Char} {left right : Term}
    (hl : (scan (.operand k)).read xs = some (left, ys)) (word : WordAt ys k.word zs)
    (h : Reaches (.chain k) right rest ((scan (.chain k)).read zs)) :
  Reaches (.chain k) (k.join left right) rest ((scan (.chain k)).read xs)
  := by
  have hlink {u : Term} {ws : List Char} (hread : (scan (.chain k)).read zs = some (u, ws)) :
      (scan (.chain k)).read xs = some (k.join left u, ws) := by
    rw [scan_chain] at hread ⊢
    obtain ⟨next, vs, hnext⟩ := exists_operand_of_chainScan hread
    rw [chainScan_of_link hl word hnext, hread]
    rfl
  generalize hread : (scan (.chain k)).read zs = found at h
  cases h with
  | exact => apply Reaches.of_eq (hlink hread)
  | farther length_lt continues =>
      rw [hlink hread]
      apply Reaches.farther length_lt continues

/-- What is derived is read, and more only where it can be used. -/
theorem Derives.reads (h : Derives r xs t rest) :
  Reaches r t rest ((scan r).read xs)
  := by
  induction h with
  | value h =>
      apply Reaches.of_eq
      apply atomScan_eq_some.mpr
      exact .inl ⟨_, h, rfl⟩
  | identifier word free =>
      apply Reaches.of_eq
      apply atomScan_eq_some.mpr
      exact .inr (.inl ⟨_, ⟨word, free⟩, rfl⟩)
  | parenthesised opening _ closing ih =>
      have hinner := ih.eq_of_not fun h => h.not_parenthesis closing
      apply Reaches.of_eq
      apply atomScan_eq_some.mpr
      exact .inr (.inr ⟨_, _, opening, hinner, closing⟩)
  | side _ ih => apply reads_side (ih.eq_of_not not_continues_atom)
  | equation _ sign _ ihl ihr =>
      have hl := ihl.eq_of_not not_continues_atom
      have hr := ihr.eq_of_not not_continues_atom
      apply Reaches.of_eq
      apply equationScan_eq_some.mpr
      exact .inl ⟨_, _, _, hl, otherSideScan_eq_some.mpr ⟨_, sign, hr⟩, rfl⟩
  | negation negations body ih =>
      apply Reaches.negation negations _ ih
      intro zs
      apply body.not_wordAt_of_equation
  | last _ ih => apply ih.last
  | link _ word _ ih ihchain =>
      have hl := ih.eq_of_not fun h => h.not_word word
      apply Reaches.link hl word ihchain

/-! ### Decision -/

/-- What comes before the rest means one term only: before no rest at all, it is what is read. -/
theorem Derives.unique {t' : Term} (h : Derives r xs t rest) (h' : Derives r xs t' rest) :
  t = t'
  := by
  obtain ⟨p, -, rfl, hp⟩ := h.detaches
  obtain ⟨q, -, heq, hq⟩ := h'.detaches
  obtain rfl := List.append_cancel_right heq
  have hread := (hp [] fun _ => .nil).reads.eq_of_not not_continues_nil
  rw [(hq [] fun _ => .nil).reads.eq_of_not not_continues_nil] at hread
  apply (Prod.mk.inj (Option.some.inj hread)).1.symm

/-- What is read leaves no more than any derivation does. -/
theorem Derives.length_le_of_read {t' : Term} {rest' : List Char} (h : Derives r xs t' rest')
    (hread : (scan r).read xs = some (t, rest)) :
  rest.length ≤ rest'.length
  := by
  have hreads := h.reads
  rw [hread] at hreads
  cases hreads with
  | exact => apply Nat.le_refl
  | farther length_lt _ => apply Nat.le_of_lt length_lt

/-- The parser of formulas reads what its grammar derives, as far as anything is derived, and fails
only where nothing is; what is read means one term. -/
theorem formula_decides (text : String) :
  (∀ t rest, formula.onText text = some (t, rest) →
      Derives (.chain .or) text.toList t rest.toList
        ∧ ∀ t' rest', Derives (.chain .or) text.toList t' rest' →
            rest.toList.length ≤ rest'.length)
    ∧ (formula.onText text = none ↔ ¬∃ t rest, Derives (.chain .or) text.toList t rest)
    ∧ ∀ t t' rest, Derives (.chain .or) text.toList t rest →
        Derives (.chain .or) text.toList t' rest → t = t'
  := by
  rw [denotes_formula.onText_eq]
  refine ⟨?_, ?_, ?_⟩
  · intro t _ h
    obtain ⟨⟨_, rest⟩, hread, heq⟩ := Option.map_eq_some_iff.mp h
    obtain ⟨rfl, rfl⟩ := Prod.mk.inj heq
    rw [String.toList_ofList]
    constructor
    · apply sound_formulaScan hread
    · intro t' rest' h'
      apply h'.length_le_of_read hread
  · rw [Option.map_eq_none_iff]
    constructor
    · rintro hread ⟨t, rest, h⟩
      have hreads := h.reads
      rw [scan, hread] at hreads
      cases hreads
    · intro hnone
      rw [Option.eq_none_iff_forall_ne_some]
      rintro ⟨t, rest⟩ hread
      apply hnone
      use t, rest, sound_formulaScan hread
  · intro t t' rest h h'
    apply h.unique h'

end Formulary.Formula
