import Formulary.Tape.Basic
import Mathlib.Data.List.TakeWhile
import Mathlib.Tactic.Common

/-!
# What a tape spells

A tape *spells* a text when the text is what its code points are in the end: those of a text held in
memory, or of a stream those it has given together with those it will give.  A cursor *stands* on a
tape before a part of the text when this part is what remains at the cursor.

Advancing a cursor drops the first code point before which it stands (`advance_moves`).  It may
take more of a stream, but the tape spells the same text as before and reaches at least as far, so
that every other cursor stands where it stood (`Stands.mono`).
-/

namespace Formulary

/-! ### Streams -/

/-- The code points that a supply gives, one for each request, until it has no more. -/
inductive Supply.Gives : Supply → List Char → Prop where
  | nothing {s : Supply} (item : s.next.item = none) : Gives s []
  | more {s : Supply} {x : Char} {xs : List Char} (item : s.next.item = some x)
      (rest : Gives s.next.rest xs) : Gives s (x :: xs)

theorem Supply.gives_codePoints (xs : List Char) :
  (Supply.codePoints xs).Gives xs
  := by
  induction xs with
  | nil => apply Gives.nothing rfl
  | cons x xs ih => apply Gives.more (s := .codePoints (x :: xs)) rfl ih

/-- The text is what a stream has given, followed by what its supply gives unless it has ended. -/
def Stream.Spells (s : Stream) (text : List Char) : Prop :=
  ∃ later, text = s.known.toList ++ later ∧
    if s.ended then later = [] else s.feed.supply.Gives later

/-- A request gives the next code point of the text, at the end of what was known. -/
theorem Stream.request_spells {s : Stream} {text : List Char} (h : s.Spells text)
    (hs : s.ended = false) :
  s.request.rest.Spells text ∧ s.known.size ≤ s.request.rest.known.size
    ∧ match s.request.item with
      | none => text.length = s.known.size
      | some i => i = s.known.size ∧ i < s.request.rest.known.size
  := by
  obtain ⟨⟨supply, requests⟩, known, ended⟩ := s
  obtain ⟨later, rfl, hlater⟩ := h
  obtain rfl : ended = false := hs
  simp only [Bool.false_eq_true, if_false] at hlater
  cases hlater with
  | nothing item =>
      simp only [request, Feed.next, item]
      refine ⟨⟨[], rfl, ?_⟩, Nat.le_refl _, by simp⟩
      simp
  | @more _ x xs item rest =>
      simp only [request, Feed.next, item]
      refine ⟨⟨xs, by simp, ?_⟩, by simp, by simp⟩
      simpa using rest

/-- The position after a known one is known after at most one request, unless the text ends
there. -/
theorem Stream.after_spells {s : Stream} {text : List Char} {i : Nat} (h : s.Spells text)
    (hi : i < s.known.size) :
  (s.after i).rest.Spells text ∧ s.known.size ≤ (s.after i).rest.known.size
    ∧ match (s.after i).item with
      | none => text.length = i + 1
      | some j => j = i + 1 ∧ j < (s.after i).rest.known.size
  := by
  rw [after]
  split_ifs with hknown hended
  · exact ⟨h, Nat.le_refl _, rfl, hknown⟩
  · obtain ⟨later, rfl, hlater⟩ := id h
    rw [if_pos hended] at hlater
    refine ⟨h, Nat.le_refl _, ?_⟩
    simp only [hlater, List.append_nil, Array.length_toList]
    omega
  · obtain ⟨hspells, hle, hitem⟩ := request_spells h (by simpa using hended)
    have hsize : s.known.size = i + 1 := by omega
    rw [hsize] at hitem
    exact ⟨hspells, hle, hitem⟩

namespace Tape

/-! ### Tapes -/

/-- The number of positions that have been reached. -/
def reached (tape : Tape) : Nat :=
  match tape.source with
  | .text codePoints => codePoints.size
  | .stream s => s.known.size

/-- The text is what the code points of a tape are in the end. -/
structure Spells (tape : Tape) (text : List Char) : Prop where
  source : match tape.source with
    | .text codePoints => codePoints.toList = text
    | .stream s => s.Spells text
  within : text.length ≤ tape.capacity

/-- The cursor stands on a tape that spells `text`, before the part `rest` of it. -/
def Stands (tape : Tape) (text : List Char) (c : Cursor) (rest : List Char) : Prop :=
  match c.position with
  | none => rest = []
  | some i => i < tape.reached ∧ rest = text.drop i

/-- A later tape: it spells the text and reaches at least as far. -/
structure Leads (text : List Char) (tape tape' : Tape) : Prop where
  spells : tape'.Spells text
  reached_le : tape.reached ≤ tape'.reached

variable {tape tape' tape'' : Tape} {text rest : List Char} {c : Cursor}

theorem Spells.leads (h : tape.Spells text) :
  Leads text tape tape
  := ⟨h, Nat.le_refl _⟩

theorem Leads.trans (h : Leads text tape tape') (h' : Leads text tape' tape'') :
  Leads text tape tape''
  := ⟨h'.spells, Nat.le_trans h.reached_le h'.reached_le⟩

/-- A cursor stands on a later tape where it stood. -/
theorem Stands.mono (hc : tape.Stands text c rest) (h : Leads text tape tape') :
  tape'.Stands text c rest
  := by
  unfold Stands at hc ⊢
  cases hp : c.position with
  | none =>
      rw [hp] at hc
      apply hc
  | some i =>
      rw [hp] at hc
      exact ⟨Nat.lt_of_lt_of_le hc.1 h.reached_le, hc.2⟩

theorem Stands.suffix (hc : tape.Stands text c rest) :
  rest <:+ text
  := by
  unfold Stands at hc
  cases hp : c.position with
  | none =>
      rw [hp] at hc
      subst hc
      apply List.nil_suffix
  | some i =>
      rw [hp] at hc
      rw [hc.2]
      apply List.drop_suffix

/-- What a tape has reached is known. -/
theorem codePointAt?_of_lt {i : Nat} (h : tape.Spells text) (hi : i < tape.reached) :
  tape.codePointAt? i = text[i]?
  := by
  have hsource := h.source
  unfold reached at hi
  unfold codePointAt?
  cases hs : tape.source with
  | text codePoints =>
      rw [hs] at hsource hi
      simp [← hsource]
  | stream s =>
      rw [hs] at hsource hi
      obtain ⟨later, rfl, -⟩ := hsource
      simp only at hi ⊢
      rw [List.getElem?_append_left (by simpa using hi)]
      simp

/-- The code point at a cursor is the first one of what remains there. -/
theorem peek?_eq_head? (h : tape.Spells text) (hc : tape.Stands text c rest) :
  tape.peek? c = rest.head?
  := by
  unfold Stands at hc
  unfold peek?
  cases hp : c.position with
  | none =>
      rw [hp] at hc
      subst hc
      rfl
  | some i =>
      rw [hp] at hc
      obtain ⟨hi, rfl⟩ := hc
      simp only [Option.bind_some, List.head?_drop]
      apply codePointAt?_of_lt h hi

@[simp]
theorem source_recordFailure (tape : Tape) (failure : Option String) :
  (tape.recordFailure failure).source = tape.source
  := by cases failure <;> rfl

@[simp]
theorem capacity_recordFailure (tape : Tape) (failure : Option String) :
  (tape.recordFailure failure).capacity = tape.capacity
  := by cases failure <;> rfl

/-- What a tape has not reached is not known. -/
theorem codePointAt?_of_le {i : Nat} (hi : tape.reached ≤ i) :
  tape.codePointAt? i = none
  := by
  unfold reached at hi
  unfold codePointAt?
  cases hs : tape.source with
  | text codePoints =>
      rw [hs] at hi
      simpa using hi
  | stream s =>
      rw [hs] at hi
      simpa using hi

theorem Spells.reached_le (h : tape.Spells text) :
  tape.reached ≤ text.length
  := by
  have hsource := h.source
  unfold reached
  cases hs : tape.source with
  | text codePoints =>
      rw [hs] at hsource
      simp [← hsource]
  | stream s =>
      rw [hs] at hsource
      obtain ⟨later, rfl, -⟩ := hsource
      simp

/-- What remains at a cursor tells its position. -/
theorem Stands.position_eq (h : tape.Spells text) (hc : tape.Stands text c rest) :
  c.position = if rest = [] then none else some (text.length - rest.length)
  := by
  have hle := h.reached_le
  unfold Stands at hc
  cases hp : c.position with
  | none =>
      rw [hp] at hc
      rw [if_pos hc]
  | some i =>
      rw [hp] at hc
      obtain ⟨hi, rfl⟩ := hc
      have hne : text.drop i ≠ [] := by
        rw [Ne, List.drop_eq_nil_iff]
        omega
      rw [if_neg hne, List.length_drop]
      congr 1
      omega

/-- Two cursors before the same part of the text are the same if their offsets are. -/
theorem Stands.cursor_eq {c' : Cursor} (h : tape.Spells text) (h' : tape'.Spells text)
    (hc : tape.Stands text c rest) (hc' : tape'.Stands text c' rest)
    (hoffset : c.offset = c'.offset) :
  c = c'
  := by
  obtain ⟨position, offset⟩ := c
  obtain ⟨position', offset'⟩ := c'
  obtain rfl : position = position' := (hc.position_eq h).trans (hc'.position_eq h').symm
  obtain rfl : offset = offset' := hoffset
  rfl

/-- After a position that has been reached, the tape spells the text as before, and the next
position is reached, or the text ends there. -/
theorem after_leads {i : Nat} (h : tape.Spells text) (hi : i < tape.reached) :
  Leads text tape (tape.after i).2
    ∧ match (tape.after i).1 with
      | none => text.length = i + 1
      | some j => j = i + 1 ∧ j < (tape.after i).2.reached
  := by
  obtain ⟨source, capacity, log⟩ := tape
  obtain ⟨hsource, hwithin⟩ := h
  cases source with
  | text codePoints =>
      obtain rfl := hsource
      simp only [reached] at hi
      rw [after]
      refine ⟨⟨⟨rfl, hwithin⟩, Nat.le_refl _⟩, ?_⟩
      simp only [Array.length_toList, reached]
      split_ifs with hnext
      · exact ⟨rfl, hnext⟩
      · simp only
        omega
  | stream s =>
      obtain ⟨hspells, hle, hitem⟩ := Stream.after_spells hsource hi
      rw [after]
      refine ⟨⟨⟨?_, by simpa using hwithin⟩, by simpa [reached] using hle⟩, ?_⟩
      · simpa using hspells
      · simpa [reached] using hitem

/-! ### Moving a cursor -/

theorem push_append_ofList (s : String) (x : Char) (xs : List Char) :
  s.push x ++ String.ofList xs = s ++ String.ofList (x :: xs)
  := by
  apply String.toList_injective
  simp

/-- From the cursor `c`, before `rest`, to the cursor `c'` of a later tape, before a part `rest'` of
`rest`; the offset counts the code points passed on the way. -/
structure Moves (text : List Char) (tape : Tape) (c : Cursor) (rest : List Char)
    (tape' : Tape) (c' : Cursor) (rest' : List Char) : Prop where
  leads : Leads text tape tape'
  stands : tape'.Stands text c' rest'
  suffix : rest' <:+ rest
  offset : c'.offset + rest'.length = c.offset + rest.length

variable {rest' rest'' : List Char} {c' c'' : Cursor}

/-- A cursor stays before the same part of the text while the tape goes on. -/
theorem Leads.moves (h : Leads text tape tape') (hc : tape.Stands text c rest) :
  Moves text tape c rest tape' c rest
  := ⟨h, hc.mono h, List.suffix_refl rest, rfl⟩

theorem Moves.refl (h : tape.Spells text) (hc : tape.Stands text c rest) :
  Moves text tape c rest tape c rest
  := h.leads.moves hc

theorem Moves.trans (h : Moves text tape c rest tape' c' rest')
    (h' : Moves text tape' c' rest' tape'' c'' rest'') :
  Moves text tape c rest tape'' c'' rest''
  := ⟨h.leads.trans h'.leads, h'.stands, h'.suffix.trans h.suffix, h'.offset.trans h.offset⟩

theorem Moves.of_leads (h : Leads text tape tape') (h' : Moves text tape' c rest tape'' c' rest') :
  Moves text tape c rest tape'' c' rest'
  := { h' with leads := h.trans h'.leads }

/-- The offset grows where a code point is passed. -/
theorem Moves.offset_lt_iff (h : Moves text tape c rest tape' c' rest') :
  c.offset < c'.offset ↔ rest'.length < rest.length
  := by
  have := h.offset
  omega

/-- Advancing a cursor drops the code point before which it stands. -/
theorem advance_moves {x : Char} (h : tape.Spells text) (hc : tape.Stands text c (x :: rest)) :
  Moves text tape c (x :: rest) (tape.advance c).2 (tape.advance c).1 rest
  := by
  unfold Stands at hc
  unfold advance
  cases hp : c.position with
  | none =>
      rw [hp] at hc
      cases hc
  | some i =>
      rw [hp] at hc
      obtain ⟨hi, hdrop⟩ := hc
      obtain ⟨hleads, hitem⟩ := after_leads h hi
      have hrest : rest = text.drop (i + 1) := by
        rw [← List.drop_drop, ← hdrop, List.drop_one, List.tail_cons]
      refine ⟨hleads, ?_, List.suffix_cons x rest, by simp only [List.length_cons]; omega⟩
      unfold Stands
      simp only
      cases hnext : (tape.after i).1 with
      | none =>
          rw [hnext] at hitem
          rw [hrest]
          apply List.drop_eq_nil_of_le
          apply Nat.le_of_eq hitem
      | some j =>
          rw [hnext] at hitem
          obtain ⟨rfl, hj⟩ := hitem
          exact ⟨hj, hrest⟩

/-- Enough steps pass all leading code points that satisfy `p`. -/
theorem passLoop_moves (p : Char → Bool) {fuel : Nat} (hfuel : rest.length ≤ fuel)
    (passed : String) (h : tape.Spells text) (hc : tape.Stands text c rest) :
  (passLoop p fuel passed c tape).1 = passed ++ String.ofList (rest.takeWhile p)
    ∧ Moves text tape c rest (passLoop p fuel passed c tape).2.2
        (passLoop p fuel passed c tape).2.1 (rest.dropWhile p)
  := by
  induction fuel generalizing passed tape c rest with
  | zero =>
      obtain rfl := List.eq_nil_of_length_eq_zero (Nat.le_zero.mp hfuel)
      exact ⟨by simp [passLoop], Moves.refl h hc⟩
  | succ fuel ih =>
      rw [passLoop, peek?_eq_head? h hc]
      cases rest with
      | nil => exact ⟨by simp, Moves.refl h hc⟩
      | cons x xs =>
          simp only [List.head?_cons]
          split_ifs with hx
          · have hstep := advance_moves h hc
            obtain ⟨hvalue, hmoves⟩ := ih (Nat.le_of_succ_le_succ hfuel) (passed.push x)
              hstep.leads.spells hstep.stands
            rw [List.takeWhile_cons_of_pos hx, List.dropWhile_cons_of_pos hx]
            constructor
            · rw [hvalue, push_append_ofList]
            · apply hstep.trans hmoves
          · rw [List.takeWhile_cons_of_neg hx, List.dropWhile_cons_of_neg hx]
            exact ⟨by simp, Moves.refl h hc⟩

theorem passWhile_moves (p : Char → Bool) (passed : String) (h : tape.Spells text)
    (hc : tape.Stands text c rest) :
  (tape.passWhile p passed c).1 = passed ++ String.ofList (rest.takeWhile p)
    ∧ Moves text tape c rest (tape.passWhile p passed c).2.2
        (tape.passWhile p passed c).2.1 (rest.dropWhile p)
  := by
  apply passLoop_moves p _ passed h hc
  apply Nat.le_trans hc.suffix.length_le h.within

/-- The rest at a cursor is what remains there. -/
theorem rest_eq (h : tape.Spells text) (hc : tape.Stands text c rest) :
  (tape.rest c).1 = String.ofList rest
  := by
  obtain ⟨hvalue, -⟩ := passWhile_moves (fun _ => true) "" h hc
  have htake : rest.takeWhile (fun _ => true) = rest := List.takeWhile_eq_self_iff.mpr (by simp)
  rw [Tape.rest, hvalue, htake, String.empty_append]

/-! ### Tapes at their beginning -/

theorem ofText_spells (text : String) :
  (ofText text).2.Spells text.toList
  := ⟨by simp [ofText], by simp [ofText]⟩

theorem ofText_stands (text : String) :
  (ofText text).2.Stands text.toList (ofText text).1 text.toList
  := by
  unfold Stands
  cases h : text.toList with
  | nil => simp [ofText, h]
  | cons x xs => simp [ofText, h, reached]

end Tape

end Formulary
