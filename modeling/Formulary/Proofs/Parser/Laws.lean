import Formulary.Parser.Repeat
import Mathlib.Logic.Equiv.Prod
import Mathlib.Tactic.Common

/-!
# Laws of composition

Equations between parsers that hold whatever the parsers are that they are composed of.  `bind` is
associative and moves past `map`, which makes sequences associative too, and choice is associative;
sequences, conditions, options and repetitions with a match at least come down to `bind`, `orElse`
and `map`.

With `succeed` and `fail` for one of its parts, a parser does what its other part does, except that
it gives back its own cursor where that one fails.  This is the parser `restoring`, which is the same
as the other part where that gives back its cursor already.
-/

namespace Formulary.Parser

variable {α β γ : Type}

theorem ext_run {p q : Parser α} (h : ∀ c tape, p.run c tape = q.run c tape) :
  p = q
  := by
  obtain ⟨run⟩ := p
  obtain ⟨run'⟩ := q
  congr
  funext c tape
  apply h

/-! ### Sequences -/

theorem bind_assoc (p : Parser α) (f : α → Parser β) (g : β → Parser γ) :
  (p.bind f).bind g = p.bind fun a => (f a).bind g
  := by
  apply ext_run
  intro c tape
  rcases hp : p.run c tape with ⟨⟨a, middle⟩ | _, tape'⟩
  · rcases hf : (f a).run middle tape' with ⟨⟨b, middle'⟩ | _, tape''⟩
    · rcases hg : (g b).run middle' tape'' with ⟨_ | _, _⟩ <;> simp [bind, hp, hf, hg]
    · simp [bind, hp, hf]
  · simp [bind, hp]

/-- What fails at once is followed by nothing. -/
theorem fail_bind (f : α → Parser β) :
  (fail : Parser α).bind f = fail
  := rfl

theorem bind_map (φ : α → β) (p : Parser α) (next : β → Parser γ) :
  (p.map φ).bind next = p.bind fun a => next (φ a)
  := by
  apply ext_run
  intro c tape
  rcases hp : p.run c tape with ⟨_ | _, _⟩ <;> simp [bind, map, Result.map, hp]

theorem map_bind (φ : β → γ) (p : Parser α) (next : α → Parser β) :
  (p.bind next).map φ = p.bind fun a => (next a).map φ
  := by
  apply ext_run
  intro c tape
  rcases hp : p.run c tape with ⟨⟨a, middle⟩ | _, tape'⟩
  · rcases hn : (next a).run middle tape' with ⟨_ | _, _⟩ <;> simp [bind, map, Result.map, hp, hn]
  · simp [bind, map, Result.map, hp]

theorem map_map (φ : α → β) (ψ : β → γ) (p : Parser α) :
  (p.map φ).map ψ = p.map fun a => ψ (φ a)
  := by
  apply ext_run
  intro c tape
  rcases hp : p.run c tape with ⟨_ | _, _⟩ <;> simp [map, Result.map, hp]

theorem both_eq_bind (p : Parser α) (q : Parser β) :
  p.both q = p.bind fun a => q.map fun b => (a, b)
  := by
  apply ext_run
  intro c tape
  rcases hp : p.run c tape with ⟨⟨a, middle⟩ | _, tape'⟩
  · rcases hq : q.run middle tape' with ⟨_ | _, _⟩ <;> simp [both, bind, map, Result.map, hp, hq]
  · simp [both, bind, hp]

/-- Of three parsers in a row it does not matter which two are paired first. -/
theorem both_assoc (p : Parser α) (q : Parser β) (r : Parser γ) :
  ((p.both q).both r).map (Equiv.prodAssoc α β γ) = p.both (q.both r)
  := by
  simp only [both_eq_bind, bind_assoc, bind_map, map_bind, map_map, Equiv.prodAssoc_apply]

theorem filterMap_eq_bind (φ : α → Option β) (p : Parser α) :
  p.filterMap φ = p.bind fun a => (φ a).elim fail succeed
  := by
  apply ext_run
  intro c tape
  rcases hp : p.run c tape with ⟨⟨a, _⟩ | _, _⟩
  · cases hφ : φ a <;> simp [filterMap, bind, fail, succeed, hp, hφ]
  · simp [filterMap, bind, hp]

/-! ### Choice -/

theorem orElse_assoc (p q r : Parser α) :
  (p.orElse q).orElse r = p.orElse (q.orElse r)
  := by
  apply ext_run
  intro c tape
  rcases hp : p.run c tape with ⟨_ | _, tape'⟩
  · simp [orElse, hp]
  · rcases hq : q.run c tape' with ⟨_ | _, _⟩ <;> simp [orElse, hp, hq]

theorem fail_orElse (p : Parser α) :
  fail.orElse p = p
  := rfl

theorem optional_eq_orElse (p : Parser α) :
  p.optional = (p.map some).orElse (succeed none)
  := by
  apply ext_run
  intro c tape
  rcases hp : p.run c tape with ⟨_ | _, _⟩ <;>
    simp [optional, orElse, map, Result.map, succeed, hp]

/-! ### Repetition -/

/-- The values of at least one match. -/
def nonempty? : List α → Option (List α)
  | [] => none
  | value :: values => some (value :: values)

theorem many1_eq_filterMap (p : Parser α) :
  p.many1 = p.many.filterMap nonempty?
  := by
  apply ext_run
  intro c tape
  rcases hp : p.many.run c tape with ⟨⟨_ | _, _⟩ | _, _⟩ <;>
    simp [many1, filterMap, nonempty?, hp]

/-! ### Parsers that give back their cursor -/

/-- The result, with the cursor `c` in the place of that of a failure. -/
def restore (c : Cursor) : Result α → Result α
  | .success value remaining => .success value remaining
  | .failure _ => .failure c

/-- Reads with `p`, and gives back its own cursor where `p` fails. -/
def restoring (p : Parser α) : Parser α := ⟨fun c tape =>
  (restore c (p.run c tape).1, (p.run c tape).2)⟩

theorem succeed_bind (a : α) (f : α → Parser β) :
  (succeed a).bind f = (f a).restoring
  := by
  apply ext_run
  intro c tape
  rcases hf : (f a).run c tape with ⟨_ | _, _⟩ <;> simp [bind, succeed, restoring, restore, hf]

theorem bind_succeed (p : Parser α) :
  p.bind succeed = p.restoring
  := by
  apply ext_run
  intro c tape
  rcases hp : p.run c tape with ⟨_ | _, _⟩ <;> simp [bind, succeed, restoring, restore, hp]

theorem bind_succeed_comp (φ : α → β) (p : Parser α) :
  (p.bind fun a => succeed (φ a)) = (p.map φ).restoring
  := by rw [← bind_map φ p succeed, bind_succeed]

theorem orElse_fail (p : Parser α) :
  p.orElse fail = p.restoring
  := by
  apply ext_run
  intro c tape
  rcases hp : p.run c tape with ⟨_ | _, _⟩ <;> simp [orElse, fail, restoring, restore, hp]

end Formulary.Parser
