import Formulary.Proofs.Formula.Token
import Formulary.Proofs.Reading

/-!
# Layout independence

What is read of a text does not depend on how its tokens are laid out (`parseFormula_layout`): from
two layouts of the same tokens the same formula is read, and what remains are layouts of the same
tokens again, or nothing is read from either.

This is a relation between two runs on different texts, which every scan of the grammar keeps
(`LayoutFree`): those that read a token do, and so does every way to compose scans.  A repetition
needs that what it repeats passes something, since its end must not depend on how many spaces there
are.
-/

namespace Formulary

open Formula

variable {α β : Type} {tokens later : List Token} {xs xs' : List Char} {f g : Scan α}

/-! ### Scans on two layouts -/

/-- The outcomes of a scan on two layouts of the tokens differ in the layout only: both are
failures, or the values are the same and the rests are layouts of the same last tokens. -/
inductive Alike (tokens : List Token) :
    Option (α × List Char) → Option (α × List Char) → Prop where
  | failure : Alike tokens none none
  | success {a : α} {later : List Token} {rest rest' : List Char} (suffix : later <:+ tokens)
      (h : Layout later rest) (h' : Layout later rest') :
      Alike tokens (some (a, rest)) (some (a, rest'))

/-- What the scan reads of a text depends on its tokens only. -/
def LayoutFree (f : Scan α) : Prop :=
  ∀ ⦃tokens xs xs'⦄, Layout tokens xs → Layout tokens xs' →
    Alike tokens (f.read xs) (f.read xs')

theorem Alike.of_suffix {found found' : Option (α × List Char)} (hlater : later <:+ tokens)
    (h : Alike later found found') :
  Alike tokens found found'
  := by
  cases h with
  | failure => apply Alike.failure
  | success suffix h h' => apply Alike.success (suffix.trans hlater) h h'

namespace LayoutFree

theorem of_readsToken {φ : Token → Option α} (hf : ReadsToken f φ) :
  LayoutFree f
  := by
  intro tokens xs xs' h h'
  cases h with
  | nil gap =>
      cases h' with
      | nil gap' =>
          rw [hf.nil gap, hf.nil gap']
          apply Alike.failure
  | @cons token later _ rest gap apart tail =>
      cases h' with
      | @cons _ _ _ rest' gap' apart' tail' =>
          rw [hf.cons gap (tail.ends apart), hf.cons gap' (tail'.ends apart')]
          cases φ token with
          | none => apply Alike.failure
          | some a => apply Alike.success (List.suffix_cons token later) tail tail'

/-! ### Composition -/

theorem succeed (a : α) :
  LayoutFree (Scan.succeed a)
  := fun tokens _ _ h h' => .success (List.suffix_refl tokens) h h'

theorem fail :
  LayoutFree (Scan.fail : Scan α)
  := fun _ _ _ _ _ => .failure

theorem bind {g : α → Scan β} (hf : LayoutFree f) (hg : ∀ a, LayoutFree (g a)) :
  LayoutFree (f.bind g)
  := by
  intro tokens xs xs' h h'
  have halike := hf h h'
  simp only [Scan.bind]
  generalize f.read xs = found, f.read xs' = found' at halike ⊢
  cases halike with
  | failure => apply Alike.failure
  | success suffix hrest hrest' => apply (hg _ hrest hrest').of_suffix suffix

theorem map (φ : α → β) (hf : LayoutFree f) :
  LayoutFree (f.map φ)
  := hf.bind fun a => succeed (φ a)

theorem both {g : Scan β} (hf : LayoutFree f) (hg : LayoutFree g) :
  LayoutFree (f.both g)
  := hf.bind fun a => hg.map fun b => (a, b)

theorem orElse (hf : LayoutFree f) (hg : LayoutFree g) :
  LayoutFree (f.orElse g)
  := by
  intro tokens xs xs' h h'
  have halike := hf h h'
  simp only [Scan.orElse]
  generalize f.read xs = found, f.read xs' = found' at halike ⊢
  cases halike with
  | failure => apply hg h h'
  | success suffix hrest hrest' => apply Alike.success suffix hrest hrest'

theorem optional (hf : LayoutFree f) :
  LayoutFree f.optional
  := (hf.map some).orElse (succeed none)

/-- A repetition ends on both layouts after the same tokens. -/
theorem gather (hf : LayoutFree f)
    (hpasses : ∀ {xs a rest}, f.read xs = some (a, rest) → rest.length < xs.length)
    (combine : β → α → β) (gathered : β) (h : Layout tokens xs) (h' : Layout tokens xs') :
  Alike tokens (some (f.gather combine gathered xs)) (some (f.gather combine gathered xs'))
  := by
  fun_induction Scan.gather f combine gathered xs generalizing tokens xs' with
  | case1 gathered xs hread =>
      have halike := hf h h'
      rw [hread] at halike
      generalize hread' : f.read xs' = found at halike
      cases halike
      rw [Scan.gather_of_none hread']
      apply Alike.success (List.suffix_refl tokens) h h'
  | case2 gathered xs a rest hread hlt ih =>
      have halike := hf h h'
      rw [hread] at halike
      generalize hread' : f.read xs' = found at halike
      cases halike with
      | success suffix hrest hrest' =>
          rw [Scan.gather_of_some hread' (hpasses hread')]
          apply (ih hrest hrest').of_suffix suffix
  | case3 gathered xs a rest hread hlt => exact absurd (hpasses hread) hlt

theorem foldl (seed : β) (combine : β → α → β) (hf : LayoutFree f)
    (hpasses : ∀ {xs a rest}, f.read xs = some (a, rest) → rest.length < xs.length) :
  LayoutFree (f.foldl seed combine)
  := fun _ _ _ h h' => hf.gather hpasses combine seed h h'

theorem many (hf : LayoutFree f)
    (hpasses : ∀ {xs a rest}, f.read xs = some (a, rest) → rest.length < xs.length) :
  LayoutFree f.many
  := (hf.foldl [] _ hpasses).map List.reverse

theorem fix {F : Scan α → Scan α} (hguarded : Scan.Guarded F)
    (hF : ∀ {f}, LayoutFree f → LayoutFree (F f)) :
  LayoutFree (Scan.fix F)
  := by
  have hdepth (depth : Nat) : LayoutFree (Scan.approximate F depth) := by
    induction depth with
    | zero => apply fail
    | succ depth ih => apply hF ih
  intro tokens xs xs' h h'
  -- a depth that suffices on both layouts
  have hagree := Scan.approximate_agree_fix hguarded (max xs.length xs'.length + 1)
  rw [← hagree xs (by omega), ← hagree xs' (by omega)]
  apply hdepth _ h h'

end LayoutFree

/-! ### The scans of the grammar -/

namespace Formula

theorem layoutFree_keyword (word : String) :
  LayoutFree (Scan.keyword word)
  := .of_readsToken (readsToken_identifier _)

theorem layoutFree_opening :
  LayoutFree (Scan.token "(")
  := .of_readsToken (readsToken_token (x := '(') rfl (by decide) (by decide) (by decide))

theorem layoutFree_closing :
  LayoutFree (Scan.token ")")
  := .of_readsToken (readsToken_token (x := ')') rfl (by decide) (by decide) (by decide))

theorem layoutFree_sign :
  LayoutFree (Scan.token "=")
  := .of_readsToken (readsToken_token (x := '=') rfl (by decide) (by decide) (by decide))

theorem layoutFree_valueScan :
  LayoutFree valueScan
  := by
  have hbool : LayoutFree boolScan := .of_readsToken (readsToken_identifier _)
  rw [valueScan_eq]
  apply (hbool.map _).orElse ((LayoutFree.of_readsToken readsToken_text).map _)

theorem layoutFree_atomScan {f : Scan Term} (hf : LayoutFree f) :
  LayoutFree (atomScan f)
  := by
  have hident : LayoutFree identScan := .of_readsToken (readsToken_identifier _)
  apply ((layoutFree_valueScan.map _).orElse (hident.map _)).orElse
  apply (((layoutFree_opening.both hf).both layoutFree_closing).map _).map

theorem layoutFree_equationScan {a : Scan Term} (ha : LayoutFree a) :
  LayoutFree (equationScan a)
  := (ha.both ((layoutFree_sign.both ha).map _).optional).map _

theorem layoutFree_negationScan {e : Scan Term} (he : LayoutFree e) :
  LayoutFree (negationScan e)
  := by
  apply (((layoutFree_keyword "NOT").foldl _ _ _).both he).map
  intro _ _ _ hread
  apply (Scan.keyword_eq_some.mp hread).2.length_lt

theorem layoutFree_chainScan (k : Connective) {o : Scan Term} (ho : LayoutFree o) :
  LayoutFree (chainScan k o)
  := by
  apply (ho.both ((((layoutFree_keyword k.word).both ho).map _).many _)).map
  intro _ _ _ hread
  obtain ⟨ys, hword, hoperand⟩ := linkScan_eq_some.mp hread
  apply Nat.lt_of_le_of_lt (o.length_le hoperand) hword.length_lt

theorem layoutFree_formulaScan :
  LayoutFree formulaScan
  := by
  apply LayoutFree.fix guarded_disjunctionScan
  intro f hf
  have hnegation := layoutFree_negationScan (layoutFree_equationScan (layoutFree_atomScan hf))
  apply layoutFree_chainScan .or (layoutFree_chainScan .and hnegation)

end Formula

/-! ### Texts -/

/-- From two layouts of the same tokens no formula is read, or the same one; then the texts that
remain, which are the ends of the two layouts, are layouts of the same last tokens. -/
theorem parseFormula_layout {text text' : String} (h : Layout tokens text.toList)
    (h' : Layout tokens text'.toList) :
  ((parseFormula text).1 = .error .unparseable ∧ (parseFormula text').1 = .error .unparseable)
    ∨ ∃ t remaining remaining',
        (parseFormula text).1 = .ok ⟨t, remaining⟩ ∧ (parseFormula text').1 = .ok ⟨t, remaining'⟩
          ∧ remaining.toList <:+ text.toList ∧ remaining'.toList <:+ text'.toList
          ∧ ∃ later, later <:+ tokens ∧ Layout later remaining.toList
              ∧ Layout later remaining'.toList
  := by
  have halike := layoutFree_formulaScan h h'
  rw [parseFormula_eq, parseFormula_eq]
  generalize hread : formulaScan.read text.toList = found,
    hread' : formulaScan.read text'.toList = found' at halike
  cases halike with
  | failure => exact .inl ⟨rfl, rfl⟩
  | @success t later rest rest' suffix hrest hrest' =>
      right
      refine ⟨t, _, _, rfl, rfl, ?_⟩
      simp only [String.toList_ofList]
      have hsuffix := (List.dropWhile_suffix isSpace).trans (formulaScan.suffix hread)
      have hsuffix' := (List.dropWhile_suffix isSpace).trans (formulaScan.suffix hread')
      exact ⟨hsuffix, hsuffix', later, suffix, hrest.dropWhile_isSpace, hrest'.dropWhile_isSpace⟩

/-- A connective without an operand after it remains, wherever the spaces are. -/
theorem parseFormula_layout_dangling :
  let tokens : List Token := [.word "NOT" (by decide), .opening, .word "a1_" (by decide), .sign,
    .text "b\"" (by decide), .closing, .word "AND" (by decide)]
  let text := "NOT(a1_=\"b\\\"\")AND"
  let text' := "\tNOT\n( a1_ = \"b\\\"\" )AND "
  let t : Term := .not (.equation (.identifier "a1_") (.str "b\""))
  Layout tokens text.toList ∧ Layout tokens text'.toList
    ∧ (parseFormula text).1 = .ok ⟨t, "AND"⟩
    ∧ ∃ remaining' later, (parseFormula text').1 = .ok ⟨t, remaining'⟩
        ∧ later <:+ tokens ∧ Layout later "AND".toList ∧ Layout later remaining'.toList
  := by
  intro tokens text text' t
  have h : Layout tokens text.toList := by decide
  have h' : Layout tokens text'.toList := by decide
  have hread : (parseFormula text).1 = .ok ⟨t, "AND"⟩ := by decide +kernel
  use h, h', hread
  obtain ⟨hfailed, -⟩ | ⟨t', remaining, remaining', hfirst, hsecond, -, -, later, hlater⟩ :=
    parseFormula_layout h h'
  · rw [hread] at hfailed
    cases hfailed
  · obtain ⟨rfl, rfl⟩ := Reading.mk.inj (Except.ok.inj (hread.symm.trans hfirst))
    exact ⟨remaining', later, hsecond, hlater⟩

end Formulary
