import Formulary.Proofs.Tape.Revisiting
import Formulary.Proofs.Tape.Supply
import Mathlib.Data.List.Forall2
import Mathlib.Data.List.Perm.Basic

/-!
# Sessions of cursors

In a session cursors are advanced, copied and given up in any order.  What they move on is a
*keeper* of code points, which is told of every cursor that is made and of every one that is given
up.  `Marks` follow a session by the positions of its cursors alone, without looking at any code
point.

A keeper that is *faithful* to a text shows at every cursor the text from the mark of the cursor on,
and has made one request more than the furthest mark so far, whatever happened before
(`Faithful.run`).  To see that a keeper is faithful it is enough to look at one step at a time.  The
tape of a supply is faithful to what the supply gives (`Tape.faithful`).
-/

namespace Formulary

variable {σ : Type}

/-! ### Keepers -/

/-- What cursors move on: the code point at a cursor, the cursor one further, the rest at a cursor,
what becomes of the state when one more cursor is set where one is, and when one is given up, and
the number of requests so far. -/
structure Keeper (σ : Type) where
  current : σ → Cursor → Char
  advance : σ → Cursor → Cursor × σ
  rest : σ → Cursor → String × σ
  hold : σ → Cursor → σ
  release : σ → Cursor → σ
  requests : σ → Nat

/-- A tape keeps every code point it has reached, whatever cursors there are. -/
def Tape.keeper : Keeper Tape :=
  ⟨Tape.current, Tape.advance, Tape.rest, fun tape _ => tape, fun tape _ => tape, Tape.requests⟩

/-! ### Steps -/

/-- What can be done with a cursor: it is advanced, copied, set anew where it stands or one code
point further, its rest is collected, or it is given up. -/
inductive Deed where
  | advance
  | copy
  | reset
  | follow
  | rest
  | drop
deriving DecidableEq

/-- A deed, and the place among the cursors in hand of the one with which it is done. -/
structure Step where
  deed : Deed
  cursor : Nat
deriving DecidableEq

/-- The cursors in hand, the latest first, and the state of their keeper. -/
structure Session (σ : Type) where
  cursors : List Cursor
  state : σ

namespace Session

/-- The session that begins with one cursor. -/
def ofCursor (start : Cursor × σ) : Session σ := ⟨[start.1], start.2⟩

/-- A step with the cursor `c`, which is the one at the place that the step names. -/
def act (κ : Keeper σ) (s : Session σ) (step : Step) (c : Cursor) : Session σ :=
  match step.deed with
  | .advance =>
    let (c', state) := κ.advance s.state c
    ⟨c' :: s.cursors, state⟩
  | .copy => ⟨c :: s.cursors, κ.hold s.state c⟩
  | .reset => ⟨c.reset :: s.cursors, κ.hold s.state c⟩
  | .follow =>
    let (c', state) := κ.advance s.state c
    ⟨c'.reset :: s.cursors, state⟩
  | .rest => ⟨s.cursors, (κ.rest s.state c).2⟩
  | .drop => ⟨s.cursors.eraseIdx step.cursor, κ.release s.state c⟩

/-- One step.  Nothing happens where there is no cursor. -/
def perform (κ : Keeper σ) (s : Session σ) (step : Step) : Session σ :=
  match s.cursors[step.cursor]? with
  | none => s
  | some c => s.act κ step c

/-- All steps, one after the other. -/
def run (κ : Keeper σ) (s : Session σ) (steps : List Step) : Session σ := steps.foldl (perform κ) s

end Session

/-! ### Marks -/

/-- The positions at which the cursors in hand stand, and the furthest that was ever reached.  The
position past the end of a text is its length. -/
structure Marks where
  positions : List Nat
  furthest : Nat
deriving DecidableEq

namespace Marks

/-- One cursor at the beginning. -/
def start : Marks := ⟨[0], 0⟩

/-- A cursor is set at `i`. -/
def set (m : Marks) (i : Nat) : Marks := ⟨i :: m.positions, max m.furthest i⟩

/-- A step with a cursor at `i`, in a text of length `n`. -/
def act (n : Nat) (m : Marks) (step : Step) (i : Nat) : Marks :=
  match step.deed with
  | .advance | .follow => m.set (min (i + 1) n)
  | .copy | .reset => m.set i
  | .rest => ⟨m.positions, n⟩
  | .drop => ⟨m.positions.eraseIdx step.cursor, m.furthest⟩

/-- One step in a text of length `n`. -/
def perform (n : Nat) (m : Marks) (step : Step) : Marks :=
  match m.positions[step.cursor]? with
  | none => m
  | some i => m.act n step i

/-- All steps, one after the other. -/
def run (n : Nat) (m : Marks) (steps : List Step) : Marks := steps.foldl (perform n) m

/-- No cursor stands beyond the furthest position, which does not lie beyond the end. -/
structure Within (n : Nat) (m : Marks) : Prop where
  position_le : ∀ i ∈ m.positions, i ≤ m.furthest
  furthest_le : m.furthest ≤ n

variable {n i : Nat} {m : Marks}

theorem within_start (n : Nat) :
  start.Within n
  := ⟨by simp [start], Nat.zero_le n⟩

theorem Within.set (h : m.Within n) (hi : i ≤ n) :
  (m.set i).Within n
  := by
  constructor
  · intro j hj
    rcases List.mem_cons.mp hj with rfl | hj
    · apply Nat.le_max_right
    · apply Nat.le_trans (h.position_le j hj) (Nat.le_max_left _ _)
  · apply Nat.max_le.mpr ⟨h.furthest_le, hi⟩

theorem Within.act (h : m.Within n) (step : Step) (hi : i ∈ m.positions) :
  (m.act n step i).Within n
  := by
  have hin : i ≤ n := Nat.le_trans (h.position_le i hi) h.furthest_le
  obtain ⟨deed, cursor⟩ := step
  cases deed with
  | advance | follow => apply h.set (Nat.min_le_right _ _)
  | copy | reset => apply h.set hin
  | rest => exact ⟨fun j hj => Nat.le_trans (h.position_le j hj) h.furthest_le, Nat.le_refl n⟩
  | drop => exact ⟨fun j hj => h.position_le j (List.mem_of_mem_eraseIdx hj), h.furthest_le⟩

end Marks

/-! ### Faithful keepers -/

/-- The position of a cursor for which `i` code points of the text were passed. -/
def positionAt (text : List Char) (i : Nat) : Option Nat := if i < text.length then some i else none

theorem isExhausted_iff {text : List Char} {c : Cursor} {i : Nat} (hi : i ≤ text.length)
    (hc : c.position = positionAt text i) :
  c.isExhausted ↔ i = text.length
  := by
  rw [Cursor.isExhausted, hc, positionAt]
  split_ifs <;> simp <;> omega

/-- What is seen of a text at a cursor that stands at `i`.  The cursor is exhausted exactly at the
end, where the end mark is shown and advancing changes nothing; before the end the next cursor
stands one code point further. -/
structure Keeper.Shows (κ : Keeper σ) (text : List Char) (state : σ) (c : Cursor) (i : Nat) :
    Prop where
  position : c.position = positionAt text i
  exhausted : c.isExhausted ↔ i = text.length
  current : κ.current state c = text.getD i Tape.endMark
  rest : (κ.rest state c).1 = String.ofList (text.drop i)
  advance : (κ.advance state c).1
    = if i < text.length then ⟨positionAt text (i + 1), c.offset + 1⟩ else c

/-- A keeper is faithful to a text when `Keeps`, which relates its states to the marks of the
cursors in hand, holds again after whatever is done with one of these cursors, and what is seen at
them is the text. -/
structure Keeper.Faithful (κ : Keeper σ) (text : List Char) (Keeps : Marks → σ → Prop) : Prop where
  requests : ∀ {m state}, Keeps m state → κ.requests state = 1 + m.furthest
  shows : ∀ {m state c i}, m.Within text.length → Keeps m state → i ∈ m.positions →
    c.position = positionAt text i → κ.Shows text state c i
  advance : ∀ {m state c i}, m.Within text.length → Keeps m state → i ∈ m.positions →
    c.position = positionAt text i → Keeps (m.set (min (i + 1) text.length)) (κ.advance state c).2
  rest : ∀ {m state c i}, m.Within text.length → Keeps m state → i ∈ m.positions →
    c.position = positionAt text i → Keeps ⟨m.positions, text.length⟩ (κ.rest state c).2
  hold : ∀ {m state c i}, m.Within text.length → Keeps m state → i ∈ m.positions →
    c.position = positionAt text i → Keeps (m.set i) (κ.hold state c)
  release : ∀ {m state c i others}, m.Within text.length → Keeps m state →
    m.positions.Perm (i :: others) → c.position = positionAt text i →
    Keeps ⟨others, m.furthest⟩ (κ.release state c)

/-- The cursors of a session stand at the marks, and its keeper keeps them. -/
structure Session.Follows (text : List Char) (Keeps : Marks → σ → Prop) (m : Marks)
    (s : Session σ) : Prop where
  within : m.Within text.length
  stands : List.Forall₂ (fun c i => c.position = positionAt text i) s.cursors m.positions
  keeps : Keeps m s.state

namespace Session.Follows

variable {κ : Keeper σ} {text : List Char} {Keeps : Marks → σ → Prop} {m : Marks} {s : Session σ}

/-- Both sides take a step with the same cursor, or neither does. -/
theorem cases_getElem? (h : Follows text Keeps m s) (k : Nat) :
  (s.cursors[k]? = none ∧ m.positions[k]? = none)
    ∨ ∃ c i, s.cursors[k]? = some c ∧ m.positions[k]? = some i ∧ c.position = positionAt text i
  := by
  have hlength := h.stands.length_eq
  by_cases hk : k < s.cursors.length
  · right
    refine ⟨s.cursors[k], m.positions[k], List.getElem?_eq_getElem hk, List.getElem?_eq_getElem _,
      ?_⟩
    apply h.stands.get hk (hlength ▸ hk)
  · left
    simp only [List.getElem?_eq_none_iff]
    omega

theorem cons (h : Follows text Keeps m s) {c : Cursor} {i : Nat} {state : σ}
    (hi : i ≤ text.length) (hc : c.position = positionAt text i) (hkeeps : Keeps (m.set i) state) :
  Follows text Keeps (m.set i) ⟨c :: s.cursors, state⟩
  := ⟨h.within.set hi, .cons hc h.stands, hkeeps⟩

/-- A cursor that was advanced stands at the next position, if there is one. -/
theorem position_advance {state : σ} {c : Cursor} {i : Nat} (h : κ.Shows text state c i) :
  (κ.advance state c).1.position = positionAt text (min (i + 1) text.length)
  := by
  rw [h.advance]
  split_ifs with hi
  · rw [Nat.min_eq_left hi]
  · rw [h.position, positionAt, positionAt, if_neg hi, if_neg (by omega)]

theorem act (hκ : κ.Faithful text Keeps) (h : Follows text Keeps m s) (step : Step) {c : Cursor}
    {i : Nat} (hi : m.positions[step.cursor]? = some i) (hc : c.position = positionAt text i) :
  Follows text Keeps (m.act text.length step i) (s.act κ step c)
  := by
  have hmem : i ∈ m.positions := List.mem_of_getElem? hi
  have hle : i ≤ text.length := Nat.le_trans (h.within.position_le i hmem) h.within.furthest_le
  have hshows := hκ.shows h.within h.keeps hmem hc
  have hadvance := hκ.advance h.within h.keeps hmem hc
  have hhold := hκ.hold h.within h.keeps hmem hc
  have hwithin := h.within.act step hmem
  obtain ⟨deed, cursor⟩ := step
  cases deed with
  | advance => apply h.cons (Nat.min_le_right _ _) (position_advance hshows) hadvance
  | copy => apply h.cons hle hc hhold
  | reset => apply h.cons hle (c := c.reset) hc hhold
  | follow =>
      apply h.cons (Nat.min_le_right _ _) (c := (κ.advance s.state c).1.reset)
        (position_advance hshows) hadvance
  | rest => exact ⟨hwithin, h.stands, hκ.rest h.within h.keeps hmem hc⟩
  | drop =>
      refine ⟨hwithin, ?_, ?_⟩
      · simp only [Session.act, Marks.act, List.eraseIdx_eq_take_drop_succ]
        apply List.rel_append (List.forall₂_take _ h.stands) (List.forall₂_drop _ h.stands)
      · apply hκ.release h.within h.keeps ?_ hc
        obtain ⟨hlt, rfl⟩ := List.getElem?_eq_some_iff.mp hi
        apply (List.getElem_cons_eraseIdx_perm hlt).symm

theorem perform (hκ : κ.Faithful text Keeps) (h : Follows text Keeps m s) (step : Step) :
  Follows text Keeps (m.perform text.length step) (s.perform κ step)
  := by
  obtain ⟨hc, hi⟩ | ⟨c, i, hc, hi, hposition⟩ := h.cases_getElem? step.cursor
  · simp only [Marks.perform, Session.perform, hc, hi]
    apply h
  · simp only [Marks.perform, Session.perform, hc, hi]
    apply h.act hκ step hi hposition

theorem run (hκ : κ.Faithful text Keeps) (h : Follows text Keeps m s) (steps : List Step) :
  Follows text Keeps (m.run text.length steps) (s.run κ steps)
  := by
  induction steps generalizing m s with
  | nil => apply h
  | cons step steps ih => apply ih (h.perform hκ step)

end Session.Follows

/-- What is to be seen of a text in a session: at every cursor the text from its mark on, the same
next position from two cursors at one position, whichever is advanced first, and one request more
than the furthest mark. -/
structure Session.Reveals (κ : Keeper σ) (text : List Char) (m : Marks) (s : Session σ) :
    Prop where
  shows : List.Forall₂ (κ.Shows text s.state) s.cursors m.positions
  again : ∀ c ∈ s.cursors, ∀ c' ∈ s.cursors, c.position = c'.position →
    (κ.advance (κ.advance s.state c).2 c').1.position = (κ.advance s.state c).1.position
  requests : κ.requests s.state = 1 + m.furthest

/-- In any session on a faithful keeper the text is seen. -/
theorem Keeper.Faithful.reveals {κ : Keeper σ} {text : List Char} {Keeps : Marks → σ → Prop}
    {m : Marks} {s : Session σ} (hκ : κ.Faithful text Keeps) (h : s.Follows text Keeps m) :
  s.Reveals κ text m
  := by
  refine ⟨?_, ?_, hκ.requests h.keeps⟩
  · apply List.forall₂_iff_get.mpr
    use h.stands.length_eq
    intro k hs hm
    apply hκ.shows h.within h.keeps (List.getElem_mem _)
    apply h.stands.get
  · intro c hc c' _ hposition
    obtain ⟨k, hk⟩ := List.getElem?_of_mem hc
    obtain ⟨hnone, -⟩ | ⟨c₀, i, hc₀, hi, hat⟩ := h.cases_getElem? k
    · rw [hk] at hnone
      cases hnone
    obtain rfl : c = c₀ := Option.some.inj (hk.symm.trans hc₀)
    have hmem : i ∈ m.positions := List.mem_of_getElem? hi
    have hfirst := hκ.shows h.within h.keeps hmem hat
    have hsecond := hκ.shows (h.within.set (Nat.min_le_right _ _))
      (hκ.advance h.within h.keeps hmem hat) (List.mem_cons_of_mem _ hmem)
      (hposition.symm.trans hat)
    rw [Session.Follows.position_advance hfirst, Session.Follows.position_advance hsecond]

/-! ### Tapes -/

namespace Tape

variable {text : List Char} {tape : Tape} {c : Cursor} {k i : Nat}

/-- Where it is not known what follows a position there is one request, and the tape reaches one
position more or is known to end. -/
theorem after_of_unknown (hi : tape.reached ≤ i + 1) (h : ¬tape.ended) :
  (tape.after i).2.requests = tape.requests + 1
    ∧ ((tape.after i).2.ended ↔ (tape.after i).1 = none)
    ∧ (tape.after i).2.reached = tape.reached + if (tape.after i).1 = none then 0 else 1
  := by
  obtain ⟨codePoints | ⟨feed, known, ended⟩, capacity, log⟩ := tape
  · exact absurd rfl h
  · obtain rfl : ended = false := by simpa [Tape.ended] using h
    have hi : ¬i + 1 < known.size := Nat.not_lt.mpr hi
    simp only [after, Stream.after, hi, if_false, Bool.false_eq_true, Stream.request, Feed.next,
      requests, Tape.ended, reached, source_recordFailure]
    cases feed.supply.next.item <;> simp

/-- A tape of which the positions up to `k`, and no others, were asked for. -/
structure Filled (text : List Char) (k : Nat) (tape : Tape) : Prop where
  spells : tape.Spells text
  reached : tape.reached = min (k + 1) text.length
  ended : tape.ended ↔ k = text.length
  requests : tape.requests = 1 + k

theorem Filled.stands (h : Filled text k tape) (hi : i ≤ k) (hc : c.position = positionAt text i) :
  tape.Stands text c (text.drop i)
  := by
  have hreached := h.reached
  unfold Stands
  rw [hc, positionAt]
  split_ifs with hlt
  · exact ⟨by omega, rfl⟩
  · apply List.drop_eq_nil_of_le
    omega

theorem Filled.fst_after (h : Filled text k tape) (hi : i ≤ k) (hlt : i < text.length) :
  (tape.after i).1 = positionAt text (i + 1)
  := by
  have hreached := h.reached
  obtain ⟨hleads, hitem⟩ := after_leads h.spells (i := i) (by omega)
  have hle := hleads.spells.reached_le
  unfold positionAt
  cases hnext : (tape.after i).1 with
  | none =>
      rw [hnext] at hitem
      rw [if_neg (by omega)]
  | some j =>
      rw [hnext] at hitem
      rw [if_pos (by omega), hitem.1]

/-- What follows a position that was asked for is asked for at most once. -/
theorem Filled.after (h : Filled text k tape) (hk : k ≤ text.length) (hi : i ≤ k)
    (hlt : i < text.length) :
  Filled text (max k (i + 1)) (tape.after i).2
  := by
  obtain ⟨hspells, hreached, hended, hrequests⟩ := id h
  by_cases hknown : i + 1 < tape.reached
  · rw [after_of_lt hknown, Nat.max_eq_left (by omega)]
    apply h
  by_cases hends : tape.ended
  · have hend := hended.mp hends
    rw [after_of_ended hends (Nat.not_lt.mp hknown), Nat.max_eq_left (by omega)]
    apply h
  -- the position is the last one that was asked for
  have hopen : k ≠ text.length := mt hended.mpr hends
  have hlast : i = k := by omega
  subst hlast
  obtain ⟨hrequests', hended', hreached'⟩ := after_of_unknown (Nat.not_lt.mp hknown) hends
  have hnone : positionAt text (i + 1) = none ↔ i + 1 = text.length := by
    simp only [positionAt, ite_eq_right_iff, reduceCtorEq, imp_false]
    omega
  rw [h.fst_after hi hlt] at hended' hreached'
  rw [Nat.max_eq_right (Nat.le_add_right i 1)]
  refine ⟨(after_leads hspells (by omega)).1.spells, ?_, hended'.trans hnone, ?_⟩
  · rw [hreached', hreached]
    simp only [hnone]
    split_ifs <;> omega
  · omega

theorem Filled.advance (h : Filled text k tape) (hk : k ≤ text.length) (hi : i ≤ k)
    (hc : c.position = positionAt text i) :
  (tape.advance c).1 = (if i < text.length then ⟨positionAt text (i + 1), c.offset + 1⟩ else c)
    ∧ Filled text (max k (min (i + 1) text.length)) (tape.advance c).2
  := by
  unfold Tape.advance
  rw [hc, positionAt]
  split_ifs with hlt
  · rw [Nat.min_eq_left hlt]
    exact ⟨by simp only [h.fst_after hi hlt], h.after hk hi hlt⟩
  · rw [Nat.min_eq_right (by omega), Nat.max_eq_left (by omega)]
    exact ⟨rfl, h⟩

/-- When the rest of a tape is passed it is asked for to its end. -/
theorem Filled.passLoop (h : Filled text k tape) (hk : k ≤ text.length) (hi : i ≤ k)
    (hc : c.position = positionAt text i) {fuel : Nat} (hfuel : text.length - i ≤ fuel)
    (passed : String) :
  Filled text text.length (passLoop (fun _ => true) fuel passed c tape).2.2
  := by
  induction fuel generalizing k tape c i passed with
  | zero =>
      obtain rfl : k = text.length := by omega
      apply h
  | succ fuel ih =>
      rw [Tape.passLoop, peek?_eq_head? h.spells (h.stands hi hc), List.head?_drop]
      by_cases hlt : i < text.length
      · rw [List.getElem?_eq_getElem hlt]
        obtain ⟨hcursor, hfilled⟩ := h.advance hk hi hc
        rw [Nat.min_eq_left hlt] at hfilled
        rw [if_pos hlt] at hcursor
        apply ih hfilled (by omega) (Nat.le_max_right _ _) (congrArg Cursor.position hcursor)
        omega
      · rw [List.getElem?_eq_none (Nat.not_lt.mp hlt)]
        obtain rfl : k = text.length := by omega
        apply h

theorem filled_ofSupply {supply : Supply} (h : supply.Gives text) :
  Filled text 0 (ofSupply supply).2 ∧ (ofSupply supply).1.position = positionAt text 0
  := by
  obtain ⟨hspells, -⟩ := ofSupply_spells h
  cases h with
  | nothing item =>
      refine ⟨⟨hspells, ?_, ?_, ?_⟩, ?_⟩ <;>
        simp [ofSupply, Stream.ofSupply, Stream.request, Feed.next, item, Tape.reached,
          Tape.ended, Tape.requests, positionAt]
  | more item rest =>
      refine ⟨⟨hspells, ?_, ?_, ?_⟩, ?_⟩ <;>
        simp [ofSupply, Stream.ofSupply, Stream.request, Feed.next, item, Tape.reached,
          Tape.ended, Tape.requests, positionAt]

/-- A tape is faithful to what it spells. -/
theorem faithful (text : List Char) :
  keeper.Faithful text fun m => Filled text m.furthest
  where
  requests h := h.requests
  shows hm h hi hc := by
    obtain ⟨hadvance, -⟩ := h.advance hm.furthest_le (hm.position_le _ hi) hc
    have hstands := h.stands (hm.position_le _ hi) hc
    have hexhausted := isExhausted_iff (Nat.le_trans (hm.position_le _ hi) hm.furthest_le) hc
    refine ⟨hc, hexhausted, ?_, rest_eq h.spells hstands, hadvance⟩
    simp only [keeper, Tape.current, peek?_eq_head? h.spells hstands, List.head?_drop,
      List.getD_eq_getElem?_getD]
  advance hm h hi hc := (h.advance hm.furthest_le (hm.position_le _ hi) hc).2
  rest hm h hi hc := by
    apply h.passLoop hm.furthest_le (hm.position_le _ hi) hc
    apply Nat.le_trans (Nat.sub_le _ _) h.spells.within
  hold hm h hi hc := by
    rw [Marks.set, Nat.max_eq_left (hm.position_le _ hi)]
    apply h
  release _ h _ _ := h

/-- A session that begins on the tape of a supply follows the marks. -/
theorem follows_start {supply : Supply} (h : supply.Gives text) :
  (Session.ofCursor (ofSupply supply)).Follows text (fun m => Filled text m.furthest) Marks.start
  := by
  obtain ⟨hfilled, hposition⟩ := filled_ofSupply h
  exact ⟨Marks.within_start _, .cons hposition .nil, hfilled⟩

end Tape

end Formulary
