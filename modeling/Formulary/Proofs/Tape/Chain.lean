import Formulary.Proofs.Tape.Session

/-!
# Chains of cells

A chain keeps code points only as long as they can be reached.  Each one has a cell of its own,
which knows the cell after it once that has been asked for, and which counts its holders: the
cursors that stand there and the cell before it.  A cell that loses its last holder is given up, and
so are the cells after it, one by one, as far as nothing else holds them.

The cells that exist, what they know and the numbers of their holders are a function of the marks of
the cursors in hand (`cellOf`), which every step keeps true.  So a chain is faithful to its text
(`Chain.faithful`) although it forgets: in any session it shows the same as a tape, which forgets
nothing, and makes the same requests (`session_reveals`).
-/

namespace Formulary

/-! ### Cells -/

/-- A code point; the address of the cell after it, if there is one, once it was asked for; and the
number of holders. -/
structure Cell where
  codePoint : Char
  next : Option (Option Nat)
  holders : Nat
deriving DecidableEq

/-- The cells by their addresses, `none` where a cell was given up, and the feed. -/
structure Chain where
  cells : List (Option Cell)
  feed : Feed

namespace Chain

/-- The cell at an address. -/
def cell? (chain : Chain) (a : Nat) : Option Cell := chain.cells[a]?.join

/-- Changes what is at an address. -/
def put (chain : Chain) (a : Nat) (cell : Option Cell) : Chain :=
  ⟨chain.cells.set a cell, chain.feed⟩

/-- Makes a request.  The item is the address of the new cell, which has one holder. -/
def pull (chain : Chain) : Option Nat × Chain :=
  match chain.feed.next with
  | ⟨none, _, feed⟩ => (none, ⟨chain.cells, feed⟩)
  | ⟨some x, _, feed⟩ => (some chain.cells.length, ⟨chain.cells ++ [some ⟨x, none, 1⟩], feed⟩)

/-- One more holder for the cell at an address. -/
def hold (chain : Chain) : Option Nat → Chain
  | none => chain
  | some a =>
    chain.put a ((chain.cell? a).map fun cell => { cell with holders := cell.holders + 1 })

/-- The address after `a`, with one more holder; it is asked for where it is not known. -/
def after (chain : Chain) (a : Nat) : Option Nat × Chain :=
  match (chain.cell? a).bind Cell.next with
  | some next => (next, chain.hold next)
  | none =>
    let (next, chain) := chain.pull
    let chain := chain.put a ((chain.cell? a).map fun cell => { cell with next := some next })
    (next, chain.hold next)

/-- The number of cells. -/
def size (chain : Chain) : Nat := chain.cells.countP Option.isSome

theorem size_put_none_lt {chain : Chain} {a : Nat} {cell : Cell} (h : chain.cell? a = some cell) :
  (chain.put a none).size < chain.size
  := by
  obtain ⟨ha, hcell⟩ := List.getElem?_eq_some_iff.mp (Option.join_eq_some_iff.mp h)
  have hpos : 0 < chain.size := List.countP_pos_iff.mpr ⟨some cell, List.mem_of_getElem hcell, rfl⟩
  have hset := List.countP_set (p := Option.isSome) (a := (none : Option Cell)) ha
  simp only [hcell, Option.isSome_some, Option.isSome_none, if_true, Bool.false_eq_true, if_false]
    at hset
  simp only [size, put] at hpos ⊢
  omega

/-- One holder fewer for the cell at an address.  The last one takes the cell with it, which was a
holder of the cell after it. -/
def release (chain : Chain) : Option Nat → Chain
  | none => chain
  | some a =>
    match _h : chain.cell? a with
    | none => chain
    | some cell =>
      if cell.holders ≤ 1 then (chain.put a none).release cell.next.join
      else chain.put a (some { cell with holders := cell.holders - 1 })
termination_by chain.size
decreasing_by exact size_put_none_lt _h

/-- The code point at the cursor, or the end mark. -/
def current (chain : Chain) (c : Cursor) : Char :=
  match c.position.bind chain.cell? with
  | none => Tape.endMark
  | some cell => cell.codePoint

/-- The cursor one code point further.  A cursor past the end stays as it is. -/
def advance (chain : Chain) (c : Cursor) : Cursor × Chain :=
  match c.position with
  | none => (c, chain)
  | some a =>
    let (position, chain) := chain.after a
    (⟨position, c.offset + 1⟩, chain)

/-- At most `fuel` steps of a cursor, which is given up at each of them for the next one. -/
def restLoop : Nat → String → Cursor → Chain → String × Chain
  | 0, passed, c, chain => (passed, chain.release c.position)
  | fuel + 1, passed, c, chain =>
    if c.isExhausted then (passed, chain.release c.position)
    else
      let (next, chain') := chain.advance c
      restLoop fuel (passed.push (chain.current c)) next (chain'.release c.position)

/-- What remains at the cursor, collected with a copy of it. -/
def rest (chain : Chain) (c : Cursor) : String × Chain :=
  restLoop (chain.cells.length + chain.feed.supply.bound) "" c (chain.hold c.position)

/-- The chain of a supply, with a cursor at its beginning.  Takes the first code point. -/
def ofSupply (supply : Supply) : Cursor × Chain :=
  let (position, chain) := pull ⟨[], ⟨supply, 0⟩⟩
  (⟨position, 0⟩, chain)

/-- A chain counts the cursors at each of its cells. -/
def keeper : Keeper Chain :=
  ⟨current, advance, rest, fun chain c => chain.hold c.position,
    fun chain c => chain.release c.position, fun chain => chain.feed.requests⟩

end Chain

/-! ### Holders -/

namespace Marks

/-- The number of holders of the cell at `a`: the cursors there, and the cell before it if that is
still held. -/
def holders (m : Marks) (a : Nat) : Nat := m.positions.count a + min 1 (m.positions.countP (· < a))

variable {positions others : List Nat} {furthest furthest' a i : Nat}

theorem holders_perm (h : positions.Perm others) :
  holders ⟨positions, furthest⟩ a = holders ⟨others, furthest'⟩ a
  := by
  simp only [holders, h.count_eq, h.countP_eq]

theorem holders_cons :
  holders ⟨i :: positions, furthest⟩ a
    = (positions.count a + if i = a then 1 else 0)
      + min 1 (positions.countP (· < a) + if i < a then 1 else 0)
  := by
  simp [holders, List.count_cons, List.countP_cons]

end Marks

namespace Chain

variable {text : List Char} {chain : Chain} {m : Marks} {a i j f : Nat} {P Q : List Nat}

/-- The cell that is found at `a` when the cursors stand at the marks. -/
def cellOf (text : List Char) (m : Marks) (a : Nat) : Option Cell :=
  if a < text.length ∧ a ≤ m.furthest ∧ 0 < m.holders a then
    some ⟨text.getD a Tape.endMark,
      if a < m.furthest then some (positionAt text (a + 1)) else none, m.holders a⟩
  else none

/-- A cell with a holder is found. -/
theorem cellOf_of_pos (ha : a < text.length) (hf : a ≤ f) (hpos : 0 < Marks.holders ⟨P, f⟩ a) :
  cellOf text ⟨P, f⟩ a = some ⟨text.getD a Tape.endMark,
    if a < f then some (positionAt text (a + 1)) else none, Marks.holders ⟨P, f⟩ a⟩
  := if_pos ⟨ha, hf, hpos⟩

theorem cellOf_congr
    (h : a < text.length → a ≤ f → Marks.holders ⟨Q, f⟩ a = Marks.holders ⟨P, f⟩ a) :
  cellOf text ⟨Q, f⟩ a = cellOf text ⟨P, f⟩ a
  := by
  unfold cellOf
  by_cases ha : a < text.length ∧ a ≤ f
  · rw [h ha.1 ha.2]
  · rw [if_neg fun hcell => ha ⟨hcell.1, hcell.2.1⟩, if_neg fun hcell => ha ⟨hcell.1, hcell.2.1⟩]

/-- Asking for one position more concerns no cells but the last two. -/
theorem cellOf_succ (ha : a ≠ f) (ha' : a ≠ f + 1) :
  cellOf text ⟨P, f + 1⟩ a = cellOf text ⟨P, f⟩ a
  := by
  unfold cellOf
  rcases Nat.lt_or_gt_of_ne ha with hlt | hlt
  · simp only [hlt, Nat.lt_succ_of_lt hlt, Nat.le_of_lt hlt, Nat.le_succ_of_le (Nat.le_of_lt hlt)]
    rfl
  · have hle : ¬a ≤ f + 1 := by omega
    have hle' : ¬a ≤ f := by omega
    rw [if_neg fun hcell => hle hcell.2.1, if_neg fun hcell => hle' hcell.2.1]

/-- The chain consists of the cells that the marks call for, and its feed goes on where it
stopped. -/
structure Keeps (text : List Char) (m : Marks) (chain : Chain) : Prop where
  cell : ∀ a, chain.cell? a = cellOf text m a
  length : chain.cells.length = min (m.furthest + 1) text.length
  requests : chain.feed.requests = 1 + m.furthest
  supply : m.furthest < text.length → chain.feed.supply.Gives (text.drop (m.furthest + 1))

/-- The same cells are found as long as no cell has gained or lost a holder. -/
theorem Keeps.congr (h : Keeps text ⟨P, f⟩ chain)
    (hholders : ∀ b < text.length, b ≤ f → Marks.holders ⟨Q, f⟩ b = Marks.holders ⟨P, f⟩ b) :
  Keeps text ⟨Q, f⟩ chain
  := by
  refine ⟨?_, h.length, h.requests, h.supply⟩
  intro b
  rw [h.cell, cellOf_congr (hholders b)]

theorem cell?_put {cell : Option Cell} (h : a < chain.cells.length) (b : Nat) :
  (chain.put a cell).cell? b = if a = b then cell else chain.cell? b
  := by
  simp only [cell?, put, List.getElem?_set, h, if_true]
  split_ifs <;> rfl

/-- A cell is changed to what it has to be, and no other one has gained or lost a holder. -/
theorem Keeps.put (h : Keeps text ⟨P, f⟩ chain) {cell : Option Cell} (ha : a < text.length)
    (hf : a ≤ f) (hcell : cell = cellOf text ⟨Q, f⟩ a)
    (hholders : ∀ b ≤ f, b ≠ a → Marks.holders ⟨Q, f⟩ b = Marks.holders ⟨P, f⟩ b) :
  Keeps text ⟨Q, f⟩ (chain.put a cell)
  := by
  have hlength : chain.cells.length = min (f + 1) text.length := h.length
  refine ⟨?_, by simpa [Chain.put] using h.length, h.requests, h.supply⟩
  intro b
  rw [cell?_put (by omega), h.cell]
  split_ifs with hb
  · rw [← hb, hcell]
  · rw [cellOf_congr fun _ hle => hholders b hle (Ne.symm hb)]

/-! ### Holding -/

/-- A cell is held as long as some cursor stands at it or before it. -/
theorem holders_pos_iff :
  0 < Marks.holders ⟨P, f⟩ a ↔ ∃ j ∈ P, j ≤ a
  := by
  have hcount : 0 < P.count a ↔ a ∈ P := List.count_pos_iff
  have hbefore : 0 < P.countP (· < a) ↔ ∃ j ∈ P, j < a := by simp [List.countP_pos_iff]
  have hpos : 0 < Marks.holders ⟨P, f⟩ a ↔ 0 < P.count a ∨ 0 < P.countP (· < a) := by
    simp only [Marks.holders]
    omega
  rw [hpos, hcount, hbefore]
  constructor
  · rintro (ha | ⟨j, hj, hlt⟩)
    · exact ⟨a, ha, Nat.le_refl a⟩
    · exact ⟨j, hj, Nat.le_of_lt hlt⟩
  · rintro ⟨j, hj, hle⟩
    rcases Nat.eq_or_lt_of_le hle with rfl | hlt
    · exact .inl hj
    · exact .inr ⟨j, hj, hlt⟩

theorem holders_pos_of_mem (ha : a ∈ P) :
  0 < Marks.holders ⟨P, f⟩ a
  := holders_pos_iff.mpr ⟨a, ha, Nat.le_refl a⟩

/-- A cell after all cursors is held by the cell before it alone. -/
theorem holders_of_lt (hj : j ∈ P) (hP : ∀ i ∈ P, i < a) :
  Marks.holders ⟨P, f⟩ a = 1
  := by
  have hnone : P.count a = 0 := List.count_eq_zero.mpr fun ha => Nat.lt_irrefl a (hP a ha)
  have hsome : 0 < P.countP (· < a) := List.countP_pos_iff.mpr ⟨j, hj, decide_eq_true (hP j hj)⟩
  simp only [Marks.holders]
  omega

/-- A cursor that is set at or after another one holds one cell more. -/
theorem holders_cons_of_le (hj : j ∈ P) (hji : j ≤ i) :
  Marks.holders ⟨i :: P, f⟩ a = Marks.holders ⟨P, f⟩ a + if i = a then 1 else 0
  := by
  rw [Marks.holders_cons, Marks.holders]
  by_cases hia : i < a
  · have : 0 < P.countP (· < a) :=
      List.countP_pos_iff.mpr ⟨j, hj, decide_eq_true (Nat.lt_of_le_of_lt hji hia)⟩
    simp only [hia, if_true]
    omega
  · simp only [hia, if_false]
    omega

theorem Keeps.hold (h : Keeps text ⟨P, f⟩ chain) (hj : j ∈ P) (hji : j ≤ i) (hi : i ≤ f) :
  Keeps text ⟨i :: P, f⟩ (chain.hold (positionAt text i))
  := by
  unfold positionAt
  split_ifs with hlt
  · apply h.put hlt hi
    · have hpos : 0 < Marks.holders ⟨P, f⟩ i := holders_pos_iff.mpr ⟨j, hj, hji⟩
      have hpos' : 0 < Marks.holders ⟨i :: P, f⟩ i := holders_pos_of_mem List.mem_cons_self
      rw [h.cell, cellOf_of_pos hlt hi hpos, cellOf_of_pos hlt hi hpos']
      rw [holders_cons_of_le hj hji, if_pos rfl]
      rfl
    · intro b _ hb
      rw [holders_cons_of_le hj hji, if_neg (Ne.symm hb), Nat.add_zero]
  · apply h.congr
    intro b hb _
    rw [holders_cons_of_le hj hji, if_neg (by omega), Nat.add_zero]

/-- The cells are those that can be reached from some cursor, as far as they were asked for. -/
theorem Keeps.isSome_cell?_iff (h : Keeps text m chain) (a : Nat) :
  (chain.cell? a).isSome ↔ a < text.length ∧ a ≤ m.furthest ∧ ∃ j ∈ m.positions, j ≤ a
  := by
  rw [h.cell, cellOf, ← holders_pos_iff (f := m.furthest)]
  by_cases hcell : a < text.length ∧ a ≤ m.furthest ∧ 0 < m.holders a
  · rw [if_pos hcell]
    exact ⟨fun _ => hcell, fun _ => rfl⟩
  · rw [if_neg hcell]
    exact ⟨fun hsome => absurd hsome Bool.false_ne_true, fun hcell' => absurd hcell' hcell⟩

/-! ### Asking for more -/

/-- The cell that the answer to a request comes to, if there is a code point at `a`. -/
def pulled (text : List Char) (a : Nat) : Option Cell := text[a]?.map fun x => ⟨x, none, 1⟩

/-- The furthest cell, at first with one holder. -/
theorem cellOf_furthest (h : Marks.holders ⟨P, f⟩ f = 1) :
  cellOf text ⟨P, f⟩ f = pulled text f
  := by
  have hpos : 0 < Marks.holders ⟨P, f⟩ f := Nat.lt_of_lt_of_eq Nat.one_pos h.symm
  unfold pulled
  by_cases hlt : f < text.length
  · rw [cellOf_of_pos hlt (Nat.le_refl f) hpos, h, if_neg (Nat.lt_irrefl f),
      List.getD_eq_getElem?_getD, List.getElem?_eq_getElem hlt]
    rfl
  · rw [cellOf, if_neg fun hcell => hlt hcell.1, List.getElem?_eq_none (Nat.not_lt.mp hlt)]
    rfl

theorem cell?_of_le (h : chain.cells.length ≤ a) :
  chain.cell? a = none
  := by
  rw [cell?, List.getElem?_eq_none h]
  rfl

theorem cell?_concat (cells : List (Option Cell)) (cell : Option Cell) (feed feed' : Feed)
    (a : Nat) :
  cell? ⟨cells ++ [cell], feed'⟩ a = if a = cells.length then cell else cell? ⟨cells, feed⟩ a
  := by
  unfold cell?
  rcases Nat.lt_trichotomy a cells.length with hlt | rfl | hlt
  · rw [if_neg (Nat.ne_of_lt hlt), List.getElem?_append_left hlt]
  · rw [if_pos rfl, List.getElem?_concat_length]
    rfl
  · rw [if_neg (Nat.ne_of_gt hlt), List.getElem?_eq_none (Nat.le_of_lt hlt),
      List.getElem?_eq_none (by rw [List.length_append]; exact hlt)]

/-- What the request after the first `k` has to give: the code point at `k`, in a new cell. -/
structure Draws (text : List Char) (k : Nat) (chain : Chain) (next : Option Nat × Chain) :
    Prop where
  item : next.1 = positionAt text k
  cell : ∀ a, next.2.cell? a = if a = k then pulled text a else chain.cell? a
  length : next.2.cells.length = min (k + 1) text.length
  requests : next.2.feed.requests = 1 + k
  supply : k < text.length → next.2.feed.supply.Gives (text.drop (k + 1))

theorem pull_draws (chain : Chain) {k : Nat} (hk : k ≤ text.length)
    (hlength : chain.cells.length = k) (hrequests : chain.feed.requests = k)
    (hsupply : chain.feed.supply.Gives (text.drop k)) :
  Draws text k chain chain.pull
  := by
  generalize hlater : text.drop k = later at hsupply
  have hhead : text[k]? = later.head? := by rw [← hlater, List.head?_drop]
  have htail : text.drop (k + 1) = later.tail := by rw [← hlater, List.tail_drop]
  have hcount : chain.feed.requests + 1 = 1 + k := by omega
  unfold Chain.pull
  cases hsupply with
  | nothing item =>
      have hend : text.length ≤ k := List.drop_eq_nil_iff.mp hlater
      have hlast : min (k + 1) text.length = k := by omega
      simp only [Feed.next, item]
      refine ⟨(if_neg (Nat.not_lt.mpr hend)).symm, ?_, hlength.trans hlast.symm, hcount,
        fun hlt => absurd hlt (Nat.not_lt.mpr hend)⟩
      intro a
      split_ifs with ha
      · rw [pulled, ha, hhead]
        apply cell?_of_le (Nat.le_of_eq hlength)
      · rfl
  | @more _ x xs item rest =>
      have hmore : k < text.length := by
        by_contra hend
        rw [List.drop_eq_nil_of_le (Nat.not_lt.mp hend)] at hlater
        cases hlater
      have hnew : (chain.cells ++ [some (Cell.mk x none 1)]).length = min (k + 1) text.length := by
        rw [List.length_append, List.length_singleton, hlength, Nat.min_eq_left hmore]
      simp only [Feed.next, item, hlength]
      refine ⟨(if_pos hmore).symm, ?_, hnew, hcount, fun _ => htail ▸ rest⟩
      intro a
      rw [cell?_concat _ _ chain.feed, hlength]
      split_ifs with ha
      · rw [pulled, ha, hhead]
        rfl
      · rfl

theorem Keeps.pull (h : Keeps text ⟨P, f⟩ chain) (hlt : f < text.length) :
  Draws text (f + 1) chain chain.pull
  := by
  apply pull_draws chain hlt (h.length.trans (Nat.min_eq_left hlt)) _ (h.supply hlt)
  apply h.requests.trans (Nat.add_comm 1 f)

/-- At the furthest position the cell after it is asked for, and the answer is kept. -/
theorem Keeps.extend (h : Keeps text ⟨P, f⟩ chain) (hP : ∀ j ∈ P, j ≤ f) (hf : f ∈ P)
    (hlt : f < text.length) :
  Keeps text ⟨P, f + 1⟩ (chain.pull.2.put f ((chain.pull.2.cell? f).map fun cell =>
    { cell with next := some chain.pull.1 }))
  := by
  obtain ⟨hitem, hcell, hlength, hrequests, hsupply⟩ := h.pull hlt
  refine ⟨?_, by simpa [Chain.put] using hlength, hrequests, hsupply⟩
  have hpos : ∀ {f'}, 0 < Marks.holders ⟨P, f'⟩ f := holders_pos_of_mem hf
  intro a
  rw [cell?_put (by omega), hcell f, if_neg (Nat.ne_of_lt (Nat.lt_add_one f)), h.cell, hcell,
    h.cell]
  split_ifs with hfa hnew
  · subst hfa
    rw [hitem, cellOf_of_pos hlt (Nat.le_refl f) hpos,
      cellOf_of_pos hlt (Nat.le_add_right f 1) hpos]
    simp only [Option.map_some, Nat.lt_add_one, if_true]
    rfl
  · rw [hnew, cellOf_furthest]
    apply holders_of_lt hf fun j hj => Nat.lt_succ_of_le (hP j hj)
  · rw [cellOf_succ (Ne.symm hfa) hnew]

/-- What follows a position of a cursor is held by one cursor more. -/
theorem Keeps.after (h : Keeps text ⟨P, f⟩ chain) (hP : ∀ j ∈ P, j ≤ f) (hi : i ∈ P)
    (hlt : i < text.length) :
  (chain.after i).1 = positionAt text (i + 1)
    ∧ Keeps text ⟨(i + 1) :: P, max f (i + 1)⟩ (chain.after i).2
  := by
  have hle := hP i hi
  have hpos : 0 < Marks.holders ⟨P, f⟩ i := holders_pos_of_mem hi
  unfold Chain.after
  rw [h.cell, cellOf_of_pos hlt hle hpos]
  rcases Nat.eq_or_lt_of_le hle with rfl | hknown
  · have hkeeps := h.extend hP hi hlt
    have hitem := (h.pull hlt).item
    simp only [Option.bind_some, Nat.lt_irrefl, if_false]
    rw [Nat.max_eq_right (Nat.le_add_right i 1)]
    refine ⟨hitem, ?_⟩
    rw [hitem] at hkeeps ⊢
    apply hkeeps.hold hi (Nat.le_add_right i 1) (Nat.le_refl _)
  · simp only [Option.bind_some, hknown, if_true]
    rw [Nat.max_eq_left hknown]
    exact ⟨trivial, h.hold hi (Nat.le_add_right i 1) hknown⟩

/-! ### Giving up -/

theorem release_none (chain : Chain) :
  chain.release none = chain
  := by rw [release]

theorem release_of_cell {cell : Cell} (h : chain.cell? a = some cell) :
  chain.release (some a) = if cell.holders ≤ 1 then (chain.put a none).release cell.next.join
    else chain.put a (some { cell with holders := cell.holders - 1 })
  := by
  rw [release]
  split
  · simp_all
  · rename_i found hfound
    obtain rfl : cell = found := by simpa [h] using hfound
    rfl

theorem holders_cons_self :
  Marks.holders ⟨i :: Q, f⟩ i = Marks.holders ⟨Q, f⟩ i + 1
  := by
  rw [Marks.holders_cons, if_pos rfl, if_neg (Nat.lt_irrefl i)]
  simp only [Marks.holders]
  omega

/-- Where a cursor is the only holder of its cell, all others stand after it. -/
theorem lt_of_holders_le_one (h : Marks.holders ⟨i :: Q, f⟩ i ≤ 1) (hj : j ∈ Q) :
  i < j
  := by
  by_contra hle
  have hpos : 0 < Marks.holders ⟨Q, f⟩ i := holders_pos_iff.mpr ⟨j, hj, Nat.not_lt.mp hle⟩
  rw [holders_cons_self] at h
  omega

/-- A cell before all cursors is not found. -/
theorem cellOf_of_lt (h : ∀ j ∈ P, a < j) :
  cellOf text ⟨P, f⟩ a = none
  := by
  rw [cellOf, if_neg]
  rintro ⟨-, -, hpos⟩
  obtain ⟨j, hj, hle⟩ := holders_pos_iff.mp hpos
  apply Nat.not_lt.mpr hle (h j hj)

/-- A cell holds the one after it like a cursor there. -/
theorem holders_move (h : ∀ j ∈ Q, i < j) (ha : a ≠ i) :
  Marks.holders ⟨(i + 1) :: Q, f⟩ a = Marks.holders ⟨i :: Q, f⟩ a
  := by
  rw [Marks.holders_cons, Marks.holders_cons]
  rcases Nat.lt_trichotomy a (i + 1) with hlt | rfl | hlt
  · rw [if_neg (by omega), if_neg (by omega), if_neg (by omega), if_neg (by omega)]
  · have hbefore : Q.countP (· < i + 1) = 0 :=
      List.countP_eq_zero.mpr fun j hj => by simpa [Nat.lt_succ_iff] using h j hj
    rw [if_pos rfl, if_neg (by omega), if_neg (by omega), if_pos (by omega), hbefore]
    omega
  · rw [if_neg (by omega), if_pos hlt, if_neg (by omega), if_pos (by omega)]

/-- The last holder of a cell takes it along, and the cell after it loses a holder. -/
theorem Keeps.put_none_next (h : Keeps text ⟨i :: Q, f⟩ chain) (hlt : i < text.length)
    (hf : i < f) (hQ : ∀ j ∈ Q, i < j) :
  Keeps text ⟨(i + 1) :: Q, f⟩ (chain.put i none)
  := by
  apply h.put hlt (Nat.le_of_lt hf)
  · symm
    apply cellOf_of_lt
    intro j hj
    rcases List.mem_cons.mp hj with rfl | hj
    · apply Nat.lt_add_one
    · apply hQ j hj
  · intro a _ ha
    apply holders_move hQ ha

/-- At the furthest position the last holder of the last cell takes it along. -/
theorem Keeps.put_none_last (h : Keeps text ⟨[f], f⟩ chain) (hlt : f < text.length) :
  Keeps text ⟨[], f⟩ (chain.put f none)
  := by
  apply h.put hlt (Nat.le_refl f)
  · symm
    apply cellOf_of_lt
    simp
  · intro a hle ha
    rw [Marks.holders_cons, if_neg (Ne.symm ha), if_neg (Nat.not_lt.mpr hle)]
    rfl

/-- Where a cell has more holders, one of them can give it up. -/
theorem Keeps.put_decrement (h : Keeps text ⟨i :: Q, f⟩ chain) (hlt : i < text.length)
    (hf : i ≤ f) (hpos : 0 < Marks.holders ⟨Q, f⟩ i) :
  Keeps text ⟨Q, f⟩ (chain.put i (some ⟨text.getD i Tape.endMark,
    if i < f then some (positionAt text (i + 1)) else none, Marks.holders ⟨i :: Q, f⟩ i - 1⟩))
  := by
  obtain ⟨j, hj, hji⟩ := holders_pos_iff.mp hpos
  apply h.put hlt hf
  · rw [cellOf_of_pos hlt hf hpos, holders_cons_self, Nat.add_sub_cancel]
  · intro a _ ha
    rw [holders_cons_of_le hj hji, if_neg (Ne.symm ha), Nat.add_zero]

/-- One cursor fewer.  The induction follows the cells that are given up, each of which leaves the
next one with a holder fewer. -/
theorem Keeps.release (h : Keeps text ⟨i :: Q, f⟩ chain) (hi : i ≤ f) (hQ : ∀ j ∈ Q, j ≤ f) :
  Keeps text ⟨Q, f⟩ (chain.release (positionAt text i))
  := by
  induction hn : text.length - i using Nat.strong_induction_on generalizing chain i with
  | h n ih =>
      by_cases hlt : i < text.length
      · have hpos : 0 < Marks.holders ⟨i :: Q, f⟩ i := holders_pos_of_mem List.mem_cons_self
        rw [positionAt, if_pos hlt, release_of_cell ((h.cell i).trans (cellOf_of_pos hlt hi hpos))]
        by_cases hlast : Marks.holders ⟨i :: Q, f⟩ i ≤ 1
        · have hafter : ∀ j ∈ Q, i < j := fun j hj => lt_of_holders_le_one hlast hj
          rw [if_pos hlast]
          rcases Nat.eq_or_lt_of_le hi with rfl | hknown
          · obtain rfl : Q = [] := List.eq_nil_iff_forall_not_mem.mpr fun j hj =>
              Nat.not_lt.mpr (hQ j hj) (hafter j hj)
            rw [if_neg (Nat.lt_irrefl i), Option.join_none, release_none]
            apply h.put_none_last hlt
          · rw [if_pos hknown]
            apply ih (text.length - (i + 1)) (by omega) (h.put_none_next hlt hknown hafter) hknown
            rfl
        · rw [if_neg hlast]
          rw [holders_cons_self] at hlast
          apply h.put_decrement hlt hi (by omega)
      · rw [positionAt, if_neg hlt, release_none]
        apply h.congr
        intro a ha _
        rw [Marks.holders_cons, if_neg (by omega), if_neg (by omega)]
        rfl

/-! ### What is seen -/

theorem Keeps.perm (h : Keeps text ⟨P, f⟩ chain) (hperm : P.Perm Q) :
  Keeps text ⟨Q, f⟩ chain
  := h.congr fun _ _ _ => Marks.holders_perm hperm.symm

variable {c : Cursor}

theorem Keeps.current (h : Keeps text ⟨P, f⟩ chain) (hP : ∀ j ∈ P, j ≤ f) (hi : i ∈ P)
    (hc : c.position = positionAt text i) :
  chain.current c = text.getD i Tape.endMark
  := by
  unfold Chain.current
  rw [hc, positionAt]
  split_ifs with hlt
  · rw [Option.bind_some, h.cell, cellOf_of_pos hlt (hP i hi) (holders_pos_of_mem hi)]
  · rw [List.getD_eq_getElem?_getD, List.getElem?_eq_none (Nat.not_lt.mp hlt)]
    rfl

theorem Keeps.advance (h : Keeps text ⟨P, f⟩ chain) (hP : ∀ j ∈ P, j ≤ f) (hf : f ≤ text.length)
    (hi : i ∈ P) (hc : c.position = positionAt text i) :
  (chain.advance c).1 = (if i < text.length then ⟨positionAt text (i + 1), c.offset + 1⟩ else c)
    ∧ Keeps text ⟨min (i + 1) text.length :: P, max f (min (i + 1) text.length)⟩ (chain.advance c).2
  := by
  have hle := hP i hi
  unfold Chain.advance
  rw [hc, positionAt]
  split_ifs with hlt
  · obtain ⟨hitem, hkeeps⟩ := h.after hP hi hlt
    rw [Nat.min_eq_left hlt]
    exact ⟨by simp only [hitem], hkeeps⟩
  · obtain rfl : f = text.length := by omega
    rw [Nat.min_eq_right (by omega), Nat.max_self]
    refine ⟨rfl, h.congr ?_⟩
    intro a ha _
    rw [holders_cons_of_le hi (by omega), if_neg (by omega), Nat.add_zero]

/-- At the end nothing is collected, and the copy is given up. -/
theorem Keeps.restLoop_end (h : Keeps text ⟨text.length :: P, text.length⟩ chain)
    (hP : ∀ j ∈ P, j ≤ text.length) (hc : c.position = positionAt text text.length) (fuel : Nat)
    (passed : String) :
  (restLoop fuel passed c chain).1 = passed ++ String.ofList (text.drop text.length)
    ∧ Keeps text ⟨P, text.length⟩ (restLoop fuel passed c chain).2
  := by
  have hexhausted : c.isExhausted := (isExhausted_iff (Nat.le_refl _) hc).mpr rfl
  have hloop : restLoop fuel passed c chain = (passed, chain.release c.position) := by
    cases fuel with
    | zero => rfl
    | succ fuel => rw [restLoop, if_pos hexhausted]
  rw [hloop, hc, List.drop_length]
  exact ⟨by simp, h.release (Nat.le_refl _) hP⟩

/-- A copy of a cursor collects the rest of the text, and is given up. -/
theorem Keeps.restLoop (h : Keeps text ⟨i :: P, f⟩ chain) (hi : i ≤ f) (hP : ∀ j ∈ P, j ≤ f)
    (hf : f ≤ text.length) (hc : c.position = positionAt text i) {fuel : Nat}
    (hfuel : text.length - i ≤ fuel) (passed : String) :
  (restLoop fuel passed c chain).1 = passed ++ String.ofList (text.drop i)
    ∧ Keeps text ⟨P, text.length⟩ (restLoop fuel passed c chain).2
  := by
  induction fuel generalizing chain c i f passed with
  | zero =>
      obtain rfl : i = text.length := by omega
      obtain rfl : f = text.length := by omega
      apply h.restLoop_end hP hc
  | succ fuel ih =>
      by_cases hlt : i < text.length
      · have hmem : i ∈ i :: P := List.mem_cons_self
        have hiP : ∀ j ∈ i :: P, j ≤ f := List.forall_mem_cons.mpr ⟨hi, hP⟩
        obtain ⟨hcursor, hadvanced⟩ := h.advance hiP hf hmem hc
        rw [if_pos hlt] at hcursor
        rw [Nat.min_eq_left hlt] at hadvanced
        -- the copy has moved on, and the cursor that it was is given up
        have hle : f ≤ max f (i + 1) := Nat.le_max_left _ _
        have hreleased := (hadvanced.perm (List.Perm.swap _ _ _)).release (Nat.le_trans hi hle)
          (List.forall_mem_cons.mpr ⟨Nat.le_max_right _ _, fun j hj => Nat.le_trans (hP j hj) hle⟩)
        rw [← hc] at hreleased
        obtain ⟨hvalue, hkeeps⟩ := ih hreleased (Nat.le_max_right _ _)
          (fun j hj => Nat.le_trans (hP j hj) hle) (by omega) (congrArg Cursor.position hcursor)
          (by omega) (passed.push (chain.current c))
        have hgoes := mt (isExhausted_iff (Nat.le_of_lt hlt) hc).mp (Nat.ne_of_lt hlt)
        rw [Chain.restLoop, if_neg hgoes]
        refine ⟨?_, hkeeps⟩
        rw [hvalue, h.current hiP hmem hc, Tape.push_append_ofList, List.getD_eq_getElem?_getD,
          List.getElem?_eq_getElem hlt, Option.getD_some, List.getElem_cons_drop]
      · obtain rfl : i = text.length := by omega
        obtain rfl : f = text.length := by omega
        apply h.restLoop_end hP hc

/-- The number of steps that are allowed is enough to reach the end. -/
theorem Keeps.length_le (h : Keeps text ⟨P, f⟩ chain) (hf : f ≤ text.length) :
  text.length ≤ chain.cells.length + chain.feed.supply.bound
  := by
  have hlength : chain.cells.length = min (f + 1) text.length := h.length
  by_cases hlt : f < text.length
  · have hbound : text.length - (f + 1) ≤ chain.feed.supply.bound := by
      simpa using (h.supply hlt).length_le_bound
    omega
  · omega

theorem Keeps.rest (h : Keeps text ⟨P, f⟩ chain) (hP : ∀ j ∈ P, j ≤ f) (hf : f ≤ text.length)
    (hi : i ∈ P) (hc : c.position = positionAt text i) :
  (chain.rest c).1 = String.ofList (text.drop i)
    ∧ Keeps text ⟨P, text.length⟩ (chain.rest c).2
  := by
  have hheld := h.hold hi (Nat.le_refl i) (hP i hi)
  rw [← hc] at hheld
  obtain ⟨hvalue, hkeeps⟩ := hheld.restLoop (hP i hi) hP hf hc
    (Nat.le_trans (Nat.sub_le _ _) (h.length_le hf)) ""
  rw [String.empty_append] at hvalue
  exact ⟨hvalue, hkeeps⟩

/-- A chain is faithful to its text. -/
theorem faithful (text : List Char) :
  keeper.Faithful text (Keeps text)
  where
  requests h := h.requests
  shows hm h hi hc := by
    have hle := Nat.le_trans (hm.position_le _ hi) hm.furthest_le
    obtain ⟨hadvance, -⟩ := h.advance hm.position_le hm.furthest_le hi hc
    obtain ⟨hrest, -⟩ := h.rest hm.position_le hm.furthest_le hi hc
    exact ⟨hc, isExhausted_iff hle hc, h.current hm.position_le hi hc, hrest, hadvance⟩
  advance hm h hi hc := (h.advance hm.position_le hm.furthest_le hi hc).2
  rest hm h hi hc := (h.rest hm.position_le hm.furthest_le hi hc).2
  hold hm h hi hc := by
    have hle := hm.position_le _ hi
    have hheld := h.hold hi (Nat.le_refl _) hle
    rw [← hc] at hheld
    rw [Marks.set, Nat.max_eq_left hle]
    apply hheld
  release hm h hperm hc := by
    have hle : ∀ j ∈ _ :: _, j ≤ _ := fun j hj => hm.position_le j (hperm.mem_iff.mpr hj)
    obtain ⟨hi, hothers⟩ := List.forall_mem_cons.mp hle
    have hreleased := (h.perm hperm).release hi hothers
    rw [← hc] at hreleased
    apply hreleased

/-- A session that begins on the chain of a supply follows the marks. -/
theorem follows_start {supply : Supply} (h : supply.Gives text) :
  (Session.ofCursor (ofSupply supply)).Follows text (Keeps text) Marks.start
  := by
  obtain ⟨hitem, hcell, hlength, hrequests, hsupply⟩ :=
    pull_draws ⟨[], ⟨supply, 0⟩⟩ (Nat.zero_le _) rfl rfl h
  refine ⟨Marks.within_start _, .cons hitem .nil, ?_, hlength, hrequests, hsupply⟩
  intro a
  apply (hcell a).trans
  split_ifs with ha
  · rw [ha, Marks.start, cellOf_furthest (by decide)]
  · rw [Marks.start, cellOf, if_neg fun hcell => ha (Nat.le_zero.mp hcell.2.1)]
    rfl

end Chain

/-- Whatever is done with cursors in whatever order, on a tape that forgets nothing and on a chain
that keeps only what can be reached: every cursor shows the text from its mark on, and one request
more was made than the furthest mark, which is never beyond the end.  The chain has a cell for what
was asked for at the earliest cursor or after it, and no other. -/
theorem session_reveals (text : List Char) (steps : List Step) :
  let marks := Marks.start.run text.length steps
  let onTape := (Session.ofCursor (Tape.ofSupply (.codePoints text))).run Tape.keeper steps
  let onChain := (Session.ofCursor (Chain.ofSupply (.codePoints text))).run Chain.keeper steps
  marks.furthest ≤ text.length
    ∧ onTape.Reveals Tape.keeper text marks
    ∧ onChain.Reveals Chain.keeper text marks
    ∧ ∀ a, (onChain.state.cell? a).isSome ↔
        a < text.length ∧ a ≤ marks.furthest ∧ ∃ i ∈ marks.positions, i ≤ a
  := by
  have hgives := Supply.gives_codePoints text
  have htape := (Tape.follows_start hgives).run (Tape.faithful text) steps
  have hchain := (Chain.follows_start hgives).run (Chain.faithful text) steps
  exact ⟨htape.within.furthest_le, (Tape.faithful text).reveals htape,
    (Chain.faithful text).reveals hchain, hchain.keeps.isSome_cell?_iff⟩

end Formulary
