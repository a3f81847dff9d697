import Formulary.Proofs.Parser.Replay

/-!
# The algebra of parsers

Two parsers are *equivalent* when it makes no difference which of them is run: from every cursor of
every tape they come to the same result and leave the same tape.  A well-behaved parser gives back
its cursor where it fails, so that restoring the cursor is no change (`WellBehaved.restoring`).

Up to equivalence the well-behaved parsers are therefore what one expects: `bind` is associative
with the unit `succeed`, choice with the unit `fail`, and the other ways to compose parsers come
down to these (`composition_laws`).  The laws in which `succeed` or `fail` is a unit, and the one for
a change of the value, ask that the parsers be well-behaved.  The others are equations.
-/

namespace Formulary.Parser

open Tape

variable {α β γ : Type} {p q : Parser α}

/-! ### Equivalence -/

/-- From every cursor of every tape the two parsers come to the same result, with the same tape. -/
def Equivalent (p q : Parser α) : Prop :=
  ∀ ⦃tape : Tape⦄ ⦃text : List Char⦄ ⦃c : Cursor⦄ ⦃rest : List Char⦄,
    tape.Spells text → tape.Stands text c rest → p.run c tape = q.run c tape

theorem Equivalent.symm (h : Equivalent p q) :
  Equivalent q p
  := by
  intro tape text c rest hs hc
  symm
  apply h hs hc

/-- A well-behaved parser restores its cursor without help. -/
theorem WellBehaved.restoring (hp : WellBehaved p) :
  Equivalent p.restoring p
  := by
  intro tape text c rest h hc
  obtain ⟨found, hread⟩ := wellBehaved_iff.mp hp h hc
  simp only [Parser.restoring]
  generalize p.run c tape = outcome at hread ⊢
  cases hread with
  | failure leads => rfl
  | success moves => rfl

/-- What is known of a tape after one of two equivalent parsers is all that the other one needs: at
any later time it comes to the same and makes no request. -/
theorem Equivalent.later {tape later : Tape} {text rest : List Char} {c : Cursor}
    (h : Equivalent p q) (hp : Replayable p) (hs : tape.Spells text) (hc : tape.Stands text c rest)
    (hgrows : Grows text (p.run c tape).2 later) :
  (q.run c later).1 = (p.run c tape).1 ∧ (q.run c later).2.requests = later.requests
  := by
  have hgrown : Grows text tape later := (hp.repeats hs hc).grows.trans hgrows
  obtain ⟨hresult, -, hrequests⟩ := hp.again hs hc hgrows
  rw [← h hgrown.spells (hc.mono hgrown.toLeads)]
  exact ⟨hresult, hrequests⟩

/-! ### Laws -/

/-- The laws of composition.  `bind` is associative, with `succeed` for a unit on both sides and
`fail` for a zero on the left.  Choice is associative with `fail` for a unit on both sides, and
sequences are associative up to the order in which their values are paired.  Sequences, conditions,
options and changes of the value come down to `bind`, `orElse` and `succeed`.  Two equivalent
parsers can also be run one after the other, with anything else in between. -/
theorem composition_laws (p p' p'' : Parser α) (q : Parser β) (r : Parser γ) (f : α → Parser β)
    (g : β → Parser γ) (hp : WellBehaved p) (hf : ∀ a, WellBehaved (f a)) :
  ((p.bind f).bind g = p.bind (fun a => (f a).bind g)
      ∧ (∀ a, Equivalent ((succeed a).bind f) (f a))
      ∧ Equivalent (p.bind succeed) p
      ∧ fail.bind f = fail)
    ∧ ((p.orElse p').orElse p'' = p.orElse (p'.orElse p'')
      ∧ fail.orElse p = p
      ∧ Equivalent (p.orElse fail) p)
    ∧ (((p.both q).both r).map (Equiv.prodAssoc α β γ) = p.both (q.both r)
      ∧ p.both q = p.bind (fun a => q.map fun b => (a, b)))
    ∧ (∀ φ : α → Option β, p.filterMap φ = p.bind fun a => (φ a).elim fail succeed)
    ∧ p.optional = (p.map some).orElse (succeed none)
    ∧ (∀ φ : α → β, Equivalent (p.map φ) (p.bind fun a => succeed (φ a)))
    ∧ ∀ {δ : Type} {s s' : Parser δ}, Equivalent s s' → Replayable s →
        ∀ {tape later : Tape} {text rest : List Char} {c : Cursor}, tape.Spells text →
          tape.Stands text c rest → Grows text (s.run c tape).2 later →
            (s'.run c later).1 = (s.run c tape).1
              ∧ (s'.run c later).2.requests = later.requests
  := by
  refine ⟨⟨bind_assoc p f g, ?_, ?_, fail_bind f⟩, ⟨orElse_assoc p p' p'', fail_orElse p, ?_⟩,
    ⟨both_assoc p q r, both_eq_bind p q⟩, fun φ => filterMap_eq_bind φ p, optional_eq_orElse p,
    ?_, fun h hs => h.later hs⟩
  · intro a
    rw [succeed_bind]
    apply (hf a).restoring
  · rw [bind_succeed]
    apply hp.restoring
  · rw [orElse_fail]
    apply hp.restoring
  · intro φ
    rw [bind_succeed_comp]
    apply (hp.map φ).restoring.symm

/-- A parser that fails after it has passed a parenthesis of a stream gives back the cursor before
it, and so does the choice between it and failure, also when it is run on what was read already. -/
theorem composition_laws_partial :
  let start := ofSupply (.codePoints "(1".toList)
  let p := ((token "(").both identifier).snd
  let first := p.run start.1 start.2
  WellBehaved p ∧ (∀ s, WellBehaved (token s)) ∧ first.1 = .failure start.1
    ∧ ((succeed "(").bind token).run start.1 start.2 = (token "(").run start.1 start.2
    ∧ (p.bind succeed).run start.1 start.2 = first
    ∧ (p.orElse fail).run start.1 start.2 = first
    ∧ ((p.orElse fail).run start.1 first.2).1 = .failure start.1
    ∧ ((p.orElse fail).run start.1 first.2).2.requests = first.2.requests
  := by
  intro start p first
  have hp : Composed Grammar p := ((composed_token "(").both composed_identifier).snd
  have hwell : WellBehaved p := hp.replayable.wellBehaved
  have htoken (s : String) : WellBehaved (token s) := (denotes_token s).wellBehaved
  obtain ⟨hs, hc⟩ := ofSupply_spells (Supply.gives_codePoints "(1".toList)
  obtain ⟨⟨-, hleft, hright, -⟩, ⟨-, -, hfail⟩, -, -, -, -, hlater⟩ :=
    composition_laws p p p identifier identifier token token hwell htoken
  have hgrows := (hp.replayable.repeats hs hc).grows.spells.grows
  obtain ⟨hresult, hrequests⟩ := hlater hfail.symm hp.replayable hs hc hgrows
  have hfailure : first.1 = .failure start.1 := by decide +kernel
  exact ⟨hwell, htoken, hfailure, hleft "(" hs hc, hright hs hc, hfail hs hc,
    hresult.trans hfailure, hrequests⟩

end Formulary.Parser
