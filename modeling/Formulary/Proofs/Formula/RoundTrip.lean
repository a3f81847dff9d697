import Formulary.Proofs.Formula.Decision
import Formulary.Proofs.Reading
import Formulary.Term.Render

/-!
# Written formulas are read back

The written form of a formula is derived from the formula by the grammar, and so is read as it,
where the formula is *legible*: its names are words other than keywords, and none of its texts ends
with a backslash, which would escape the closing quote.  No other formula is ever derived
(`Derives.legible`), so that no other formula is read back, whatever its written form is read as.
-/

namespace Formulary

namespace Term

/-- The names in a formula, from left to right. -/
def names : Term → List String
  | .value _ => []
  | .identifier name => [name]
  | .not arg => arg.names
  | .equation left right | .and left right | .or left right => left.names ++ right.names

/-- The texts in a formula, from left to right. -/
def texts : Term → List String
  | .value (.bool _) => []
  | .value (.str s) => [s]
  | .identifier _ => []
  | .not arg => arg.texts
  | .equation left right | .and left right | .or left right => left.texts ++ right.texts

/-- The names are words but no keywords, and the texts do not end with a backslash. -/
structure Legible (t : Term) : Prop where
  names : ∀ name ∈ t.names, IsWord name.toList ∧ name ∉ Formula.keywords
  texts : ∀ s ∈ t.texts, s.toList.getLast? ≠ some '\\'

variable {k : Connective} {left right arg t : Term}

theorem names_join (k : Connective) (left right : Term) :
  (k.join left right).names = left.names ++ right.names
  := by cases k <;> rfl

theorem texts_join (k : Connective) (left right : Term) :
  (k.join left right).texts = left.texts ++ right.texts
  := by cases k <;> rfl

theorem render_join (k : Connective) (left right : Term) :
  (k.join left right).render = "(" ++ left.render ++ " " ++ k.word ++ " " ++ right.render ++ ")"
  := by
  cases k with
  | and =>
      have hword : " AND " = " " ++ "AND" ++ " " := by decide
      simp only [Connective.join, render, Connective.word, hword, String.append_assoc]
  | or =>
      have hword : " OR " = " " ++ "OR" ++ " " := by decide
      simp only [Connective.join, render, Connective.word, hword, String.append_assoc]

/-- A formula is legible if the formulas are from which it has its names and texts. -/
theorem legible_of_append (hnames : t.names = left.names ++ right.names)
    (htexts : t.texts = left.texts ++ right.texts) :
  t.Legible ↔ left.Legible ∧ right.Legible
  := by
  constructor
  · rintro ⟨hn, ht⟩
    simp only [hnames, htexts, List.mem_append] at hn ht
    constructor
    · exact ⟨fun name h => hn name (.inl h), fun s h => ht s (.inl h)⟩
    · exact ⟨fun name h => hn name (.inr h), fun s h => ht s (.inr h)⟩
  · rintro ⟨⟨hn, ht⟩, ⟨hn', ht'⟩⟩
    constructor
    · intro name h
      rw [hnames] at h
      apply (List.mem_append.mp h).elim (hn name) (hn' name)
    · intro s h
      rw [htexts] at h
      apply (List.mem_append.mp h).elim (ht s) (ht' s)

theorem legible_equation :
  (equation left right).Legible ↔ left.Legible ∧ right.Legible
  := legible_of_append rfl rfl

theorem legible_join :
  (k.join left right).Legible ↔ left.Legible ∧ right.Legible
  := legible_of_append (names_join k left right) (texts_join k left right)

theorem legible_not :
  (not arg).Legible ↔ arg.Legible
  := by
  constructor
  · rintro ⟨hn, ht⟩
    exact ⟨hn, ht⟩
  · rintro ⟨hn, ht⟩
    exact ⟨hn, ht⟩

end Term

namespace Formula

open Formulary.Parser

variable {xs rest : List Char} {t : Term} {r : Rule}

/-! ### What is derived is legible -/

theorem ValueAt.legible {v : Value} (h : ValueAt xs v rest) :
  (Term.value v).Legible
  := by
  cases h with
  | true => constructor <;> simp [Term.names, Term.texts]
  | false => constructor <;> simp [Term.names, Term.texts]
  | text gap contents =>
      constructor
      · simp [Term.names]
      · simpa [Term.texts] using contents.getLast?_ne

theorem legible_negated (k : Nat) :
  (negated k t).Legible ↔ t.Legible
  := by
  unfold negated
  split_ifs
  · apply Iff.rfl
  · apply Term.legible_not

/-- Every formula that anything is derived as is legible. -/
theorem Derives.legible (h : Derives r xs t rest) :
  t.Legible
  := by
  induction h with
  | value h => apply h.legible
  | identifier word free =>
      constructor
      · simpa [Term.names] using ⟨word.isWord, free⟩
      · simp [Term.texts]
  | parenthesised _ _ _ ih => apply ih
  | side _ ih => apply ih
  | equation _ _ _ ihl ihr => apply Term.legible_equation.mpr ⟨ihl, ihr⟩
  | negation _ _ ih => apply (legible_negated _).mpr ih
  | last _ ih => apply ih
  | link _ _ _ ih ihchain => apply Term.legible_join.mpr ⟨ih, ihchain⟩

/-! ### Written forms are derived -/

theorem valueAt_render {v : Value} (h : (Term.value v).Legible) (hends : EndsWord rest) :
  ValueAt (v.render.toList ++ rest) v rest
  := by
  cases v with
  | bool b =>
      cases b with
      | true => apply ValueAt.true (wordAt_append (by decide) hends)
      | false => apply ValueAt.false (wordAt_append (by decide) hends)
  | str s =>
      have hlast : s.toList.getLast? ≠ some '\\' := h.texts s (by simp [Term.texts])
      have hrender : (Value.str s).render.toList ++ rest
          = '"' :: (Value.escapeQuotes s.toList ++ '"' :: rest) := by
        simp [Value.render, Value.renderText]
      rw [hrender]
      apply ValueAt.text (Gap.refl _) (contents_escapeQuotes hlast rest)

/-- The written form of a legible formula stands for it before anything that ends a word: as an
atom, unless it is an equation, and as an equation. -/
structure Written (t : Term) : Prop where
  atom : t.isEquation = false →
    ∀ ⦃rest : List Char⦄, EndsWord rest → Derives .atom (t.render.toList ++ rest) t rest
  equation :
    ∀ ⦃rest : List Char⦄, EndsWord rest → Derives .equation (t.render.toList ++ rest) t rest

theorem Written.of_atom
    (h : ∀ ⦃rest : List Char⦄, EndsWord rest → Derives .atom (t.render.toList ++ rest) t rest) :
  Written t
  where
  atom _ := h
  equation _ hends := .side (h hends)

/-- A formula in parentheses stands for itself. -/
theorem derives_parenthesised (h : Derives (.chain .or) xs t (')' :: rest)) :
  Derives .atom ('(' :: xs) t rest
  := .parenthesised (Gap.refl _) h (Gap.refl _)

theorem endsWord_parenthesis (rest : List Char) :
  EndsWord (')' :: rest)
  := .cons (by decide) rest

theorem endsWord_space (rest : List Char) :
  EndsWord (' ' :: rest)
  := .cons (by decide) rest

/-- A side of an equation is an atom, since an equation gets parentheses. -/
theorem Written.side (h : Written t) (hends : EndsWord rest) :
  Derives .atom ((Term.renderSide t t.render).toList ++ rest) t rest
  := by
  unfold Term.renderSide
  split_ifs with ht
  · have hrender : ("(" ++ t.render ++ ")").toList ++ rest
        = '(' :: (t.render.toList ++ ')' :: rest) := by
      simp
    rw [hrender]
    apply derives_parenthesised (h.equation (endsWord_parenthesis rest)).formula
  · apply h.atom (by simpa using ht) hends

theorem written_equation {left right : Term} (hl : Written left) (hr : Written right) :
  Written (.equation left right)
  := by
  constructor
  · intro h
    cases h
  · intro rest hends
    have hrender : (Term.equation left right).render.toList ++ rest
        = (Term.renderSide left left.render).toList
          ++ '=' :: ((Term.renderSide right right.render).toList ++ rest) := by
      simp [Term.render]
    rw [hrender]
    apply Derives.equation (hl.side (.cons (by decide) _)) (Gap.refl _) (hr.side hends)

theorem written_not {arg : Term} (h : Written arg) :
  Written (.not arg)
  := by
  apply Written.of_atom
  intro rest hends
  have hrender : (Term.not arg).render.toList ++ rest
      = '(' :: ("NOT".toList ++ ' ' :: (arg.render.toList ++ ')' :: rest)) := by
    simp [Term.render]
  have hword : IsWord "NOT".toList := by decide
  have harg := (h.equation (endsWord_parenthesis rest)).cons (x := ' ') (by decide)
  rw [hrender]
  apply derives_parenthesised
  apply Derives.not (wordAt_append hword (endsWord_space _)) harg

theorem written_join (k : Connective) {left right : Term} (hl : Written left)
    (hr : Written right) :
  Written (k.join left right)
  := by
  apply Written.of_atom
  intro rest hends
  have hrender : (k.join left right).render.toList ++ rest
      = '(' :: (left.render.toList
          ++ ' ' :: (k.word.toList ++ ' ' :: (right.render.toList ++ ')' :: rest))) := by
    simp [Term.render_join]
  have hword : IsWord k.word.toList := by cases k <;> decide
  have hright := (hr.equation (endsWord_parenthesis rest)).cons (x := ' ') (by decide)
  have hconnective {ys : List Char} :
      WordAt (' ' :: (k.word.toList ++ ' ' :: ys)) k.word (' ' :: ys) :=
    (wordAt_append hword (endsWord_space ys)).cons (by decide)
  rw [hrender]
  apply derives_parenthesised
  apply (hl.equation (endsWord_space _)).join hconnective hright

theorem written_of_legible (h : t.Legible) :
  Written t
  := by
  induction t using Term.rec_join with
  | value v =>
      apply Written.of_atom
      intro rest hends
      apply Derives.value (valueAt_render h hends)
  | identifier name =>
      obtain ⟨hword, hfree⟩ := h.names name (by simp [Term.names])
      apply Written.of_atom
      intro rest hends
      apply Derives.identifier (wordAt_append hword hends) hfree
  | equation left right ihl ihr =>
      obtain ⟨hl, hr⟩ := Term.legible_equation.mp h
      apply written_equation (ihl hl) (ihr hr)
  | not arg ih => apply written_not (ih (Term.legible_not.mp h))
  | join k left right ihl ihr =>
      obtain ⟨hl, hr⟩ := Term.legible_join.mp h
      apply written_join k (ihl hl) (ihr hr)

/-- A legible formula is read from its written form, and nothing remains. -/
theorem formulaScan_render (h : t.Legible) :
  formulaScan.read t.render.toList = some (t, [])
  := by
  have hderives := ((written_of_legible h).equation EndsWord.nil).formula
  have hread := hderives.reads.eq_of_not not_continues_nil
  rw [List.append_nil] at hread
  apply hread

end Formula

/-- A formula is read back from its written form just when it is legible. -/
theorem parseFormula_render_iff (t : Term) :
  (parseFormula t.render).1 = .ok ⟨t, ""⟩ ↔ t.Legible
  := by
  rw [parseFormula_eq]
  constructor
  · intro h
    cases hread : Formula.formulaScan.read t.render.toList with
    | none =>
        rw [hread] at h
        cases h
    | some found =>
        rw [hread] at h
        obtain ⟨rfl, -⟩ := Reading.mk.inj (Except.ok.inj h)
        apply (Formula.sound_formulaScan hread).legible
  · intro h
    rw [Formula.formulaScan_render h]
    rfl

end Formulary
