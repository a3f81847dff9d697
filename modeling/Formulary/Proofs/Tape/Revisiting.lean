import Formulary.Proofs.Tape.Spelling

/-!
# Tapes visited again

What has been done on a tape once can be done again at any later time: it gives the same and makes
no request.  This is what `Repeats` says of an action, which takes a tape and gives a value and the
tape after it.  In between the tape may have *grown*, as other actions took more of its stream.

Looking at a cursor repeats, and so does advancing it (`advance_repeats`).  Actions that repeat can
be done one after the other (`Repeats.bind`), so that passing any number of code points repeats too.
-/

namespace Formulary.Tape

variable {γ δ : Type} {tape tape' tape'' : Tape} {text rest : List Char} {c : Cursor}

/-! ### Growth -/

/-- Whether it is known that there are no more code points than have been reached. -/
def ended (tape : Tape) : Bool :=
  match tape.source with
  | .text _ => true
  | .stream s => s.ended

/-- The number of requests that have been made for code points. -/
def requests (tape : Tape) : Nat :=
  match tape.source with
  | .text _ => 0
  | .stream s => s.feed.requests

/-- A later tape, on which all is known that was known before. -/
structure Grows (text : List Char) (tape tape' : Tape) : Prop extends Leads text tape tape' where
  ended : tape.ended → tape'.ended
  capacity : tape'.capacity = tape.capacity

/-- The same tape, except for its log. -/
structure Similar (tape tape' : Tape) : Prop where
  source : tape'.source = tape.source
  capacity : tape'.capacity = tape.capacity

theorem Spells.grows (h : tape.Spells text) :
  Grows text tape tape
  := ⟨h.leads, id, rfl⟩

theorem Grows.trans (h : Grows text tape tape') (h' : Grows text tape' tape'') :
  Grows text tape tape''
  := ⟨h.toLeads.trans h'.toLeads, h'.ended ∘ h.ended, h'.capacity.trans h.capacity⟩

theorem Similar.refl (tape : Tape) :
  Similar tape tape
  := ⟨rfl, rfl⟩

theorem Similar.trans (h : Similar tape tape') (h' : Similar tape' tape'') :
  Similar tape tape''
  := ⟨h'.source.trans h.source, h'.capacity.trans h.capacity⟩

theorem similar_record (tape : Tape) (event : Event) :
  Similar tape (tape.record event)
  := ⟨rfl, rfl⟩

theorem Similar.requests_eq (h : Similar tape tape') :
  tape'.requests = tape.requests
  := by rw [requests, h.source, requests]

/-- What is known of a tape does not depend on its log. -/
theorem Grows.similar (h : Grows text tape tape') (h' : Similar tape' tape'') :
  Grows text tape tape''
  := by
  obtain ⟨⟨⟨hsource, hwithin⟩, hreached⟩, hended, hcapacity⟩ := h
  refine ⟨⟨⟨?_, ?_⟩, ?_⟩, ?_, h'.capacity.trans hcapacity⟩
  · rw [h'.source]
    apply hsource
  · rw [h'.capacity]
    apply hwithin
  · rw [reached.eq_def tape'', h'.source]
    apply hreached
  · rw [Tape.ended.eq_def tape'', h'.source]
    apply hended

/-! ### Actions -/

/-- The action leads to a tape that has grown, and on every tape that grows from there it gives the
same and changes the log at most. -/
structure Repeats (text : List Char) (m : Tape → γ × Tape) (tape : Tape) : Prop where
  grows : Grows text tape (m tape).2
  again : ∀ ⦃later : Tape⦄, Grows text (m tape).2 later →
    (m later).1 = (m tape).1 ∧ Similar later (m later).2

theorem Repeats.pure (h : tape.Spells text) (value : γ) :
  Repeats text (fun tape => (value, tape)) tape
  := ⟨h.grows, fun later _ => ⟨rfl, .refl later⟩⟩

theorem Repeats.record (h : tape.Spells text) (value : γ) (event : Event) :
  Repeats text (fun tape => (value, tape.record event)) tape
  := ⟨h.grows.similar (similar_record tape event), fun later _ => ⟨rfl, similar_record later event⟩⟩

/-- An action repeats that does one which repeats and then, with its value, one more. -/
theorem Repeats.andThen {m : Tape → γ × Tape} {n k : Tape → δ × Tape} (hm : Repeats text m tape)
    (hk : Repeats text k (m tape).2)
    (hn : ∀ later, (m later).1 = (m tape).1 → n later = k (m later).2) :
  Repeats text n tape
  := by
  have htape := hn tape rfl
  constructor
  · rw [htape]
    apply hm.grows.trans hk.grows
  · intro later hlater
    rw [htape] at hlater ⊢
    obtain ⟨hvalue, hsimilar⟩ := hm.again (hk.grows.trans hlater)
    obtain ⟨hvalue', hsimilar'⟩ := hk.again (hlater.similar hsimilar)
    rw [hn later hvalue]
    exact ⟨hvalue', hsimilar.trans hsimilar'⟩

theorem Repeats.bind {m : Tape → γ × Tape} {k : γ → Tape → δ × Tape} (hm : Repeats text m tape)
    (hk : Repeats text (k (m tape).1) (m tape).2) :
  Repeats text (fun tape => k (m tape).1 (m tape).2) tape
  := by
  apply hm.andThen hk
  intro later hvalue
  rw [hvalue]

theorem Repeats.map {m : Tape → γ × Tape} (hm : Repeats text m tape) (φ : γ → δ) :
  Repeats text (fun tape => (φ (m tape).1, (m tape).2)) tape
  := by
  use hm.grows
  intro later hlater
  obtain ⟨hvalue, hsimilar⟩ := hm.again hlater
  exact ⟨congrArg φ hvalue, hsimilar⟩

/-- Only what an action does on the tape and on those that grow from it matters. -/
theorem Repeats.congr {m m' : Tape → γ × Tape} (hm : Repeats text m tape) (h : tape.Spells text)
    (heq : ∀ later, Grows text tape later → m' later = m later) :
  Repeats text m' tape
  := by
  constructor
  · rw [heq tape h.grows]
    apply hm.grows
  · intro later hlater
    rw [heq tape h.grows] at hlater ⊢
    rw [heq later (hm.grows.trans hlater)]
    apply hm.again hlater

/-! ### Cursors -/

/-- A tape that has grown shows the same at a cursor. -/
theorem Grows.peek?_eq (h : Grows text tape tape') (hc : tape.Stands text c rest) :
  tape'.peek? c = rest.head?
  := peek?_eq_head? h.spells (hc.mono h.toLeads)

/-- The tape has reached the position of the cursor. -/
def HasReached (tape : Tape) (c : Cursor) : Prop := ∀ i ∈ c.position, i < tape.reached

theorem Stands.hasReached (hc : tape.Stands text c rest) :
  tape.HasReached c
  := by
  intro i hi
  unfold Stands at hc
  rw [Option.mem_def.mp hi] at hc
  apply hc.1

/-- A cursor that has been reached stands before some part of any text. -/
theorem HasReached.exists_stands (hc : tape.HasReached c) (text : List Char) :
  ∃ rest, tape.Stands text c rest
  := by
  unfold Stands
  cases hp : c.position with
  | none => exact ⟨[], rfl⟩
  | some i => exact ⟨text.drop i, hc i hp, rfl⟩

theorem after_of_lt {i : Nat} (h : i + 1 < tape.reached) :
  tape.after i = (some (i + 1), tape)
  := by
  obtain ⟨codePoints | s, capacity, log⟩ := tape
  · simp only [reached] at h
    rw [after, if_pos h]
  · simp only [reached] at h
    rw [after, Stream.after, if_pos h]
    rfl

theorem after_of_ended {i : Nat} (h : tape.ended) (hi : tape.reached ≤ i + 1) :
  tape.after i = (none, tape)
  := by
  obtain ⟨codePoints | s, capacity, log⟩ := tape
  · simp only [reached] at hi
    rw [after, if_neg (Nat.not_lt.mpr hi)]
  · simp only [reached] at hi
    simp only [Tape.ended] at h
    rw [after, Stream.after, if_neg (Nat.not_lt.mpr hi), if_pos h]
    rfl

/-- Where there is no next position it is known that there are no more code points. -/
theorem ended_after {i : Nat} (h : tape.ended ∨ (tape.after i).1 = none) :
  (tape.after i).2.ended
  := by
  obtain ⟨codePoints | ⟨feed, known, ended⟩, capacity, log⟩ := tape
  · rfl
  · simp only [Tape.ended, after, Stream.after, Stream.request, source_recordFailure] at h ⊢
    split_ifs at h ⊢ with hknown hended
    · simpa using h
    · apply hended
    · generalize feed.next = answer at h ⊢
      obtain ⟨_ | _, _, _⟩ := answer
      · rfl
      · simp [hended] at h

theorem capacity_after (tape : Tape) (i : Nat) :
  (tape.after i).2.capacity = tape.capacity
  := by
  obtain ⟨codePoints | s, capacity, log⟩ := tape
  · rfl
  · rw [after, capacity_recordFailure]

/-- A position is known once it has been asked for, and so is the end. -/
theorem after_repeats {i : Nat} (h : tape.Spells text) (hi : i < tape.reached) :
  Repeats text (fun tape => tape.after i) tape
  := by
  obtain ⟨hleads, hitem⟩ := after_leads h hi
  refine ⟨⟨hleads, fun hended => ended_after (.inl hended), capacity_after tape i⟩, ?_⟩
  intro later hlater
  cases hnext : (tape.after i).1 with
  | none =>
      rw [hnext] at hitem
      have hended := hlater.ended (ended_after (.inr hnext))
      rw [after_of_ended hended (hitem ▸ hlater.spells.reached_le)]
      exact ⟨rfl, .refl later⟩
  | some j =>
      rw [hnext] at hitem
      obtain ⟨rfl, hj⟩ := hitem
      rw [after_of_lt (Nat.lt_of_lt_of_le hj hlater.reached_le)]
      exact ⟨rfl, .refl later⟩

theorem advance_repeats (h : tape.Spells text) (hc : tape.Stands text c rest) :
  Repeats text (fun tape => tape.advance c) tape
  := by
  obtain ⟨position, offset⟩ := c
  cases position with
  | none => apply Repeats.pure h
  | some i => apply (after_repeats h hc.1).map fun position => Cursor.mk position (offset + 1)

/-- An action that looks at a cursor, and goes on from the next one only where the code point
satisfies `φ`, repeats if what it goes on with does. -/
theorem Repeats.look {n : Tape → γ × Tape} (φ : Char → Prop) (value : γ)
    (k : Char → Cursor → Tape → γ × Tape) (h : tape.Spells text) (hc : tape.Stands text c rest)
    (hnone : ∀ later, later.peek? c = none → n later = (value, later))
    (hstay : ∀ later x, later.peek? c = some x → ¬φ x → n later = (value, later))
    (hgo : ∀ later x, later.peek? c = some x → φ x →
      n later = k x (later.advance c).1 (later.advance c).2)
    (hk : ∀ {x xs}, tape.Stands text c (x :: xs) → φ x →
      Repeats text (k x (tape.advance c).1) (tape.advance c).2) :
  Repeats text n tape
  := by
  cases rest with
  | nil =>
      apply (Repeats.pure h value).congr h
      intro later hlater
      apply hnone later (hlater.peek?_eq hc)
  | cons x xs =>
      by_cases hx : φ x
      · apply ((advance_repeats h hc).bind (hk hc hx)).congr h
        intro later hlater
        apply hgo later x (hlater.peek?_eq hc) hx
      · apply (Repeats.pure h value).congr h
        intro later hlater
        apply hstay later x (hlater.peek?_eq hc) hx

/-! ### Passing code points -/

/-- The action of passing code points, with what was passed and the cursor after it. -/
def passing (p : Char → Bool) (fuel : Nat) (passed : String) (c : Cursor) (tape : Tape) :
    (String × Cursor) × Tape :=
  let (passed, c, tape) := passLoop p fuel passed c tape
  ((passed, c), tape)

theorem passing_repeats (p : Char → Bool) (fuel : Nat) (passed : String) (h : tape.Spells text)
    (hc : tape.Stands text c rest) :
  Repeats text (passing p fuel passed c) tape
  := by
  induction fuel generalizing passed tape c rest with
  | zero => apply Repeats.pure h
  | succ fuel ih =>
      apply Repeats.look (p ·) (passed, c) (fun x => passing p fuel (passed.push x)) h hc
      · intro later hpeek
        simp only [passing, passLoop, hpeek]
      · intro later x hpeek hx
        simp only [passing, passLoop, hpeek, if_neg hx]
      · intro later x hpeek hx
        simp only [passing, passLoop, hpeek, if_pos hx]
      · intro x _ hc hx
        have hstep := advance_moves h hc
        apply ih (passed.push x) hstep.leads.spells hstep.stands

theorem passWhile_repeats (p : Char → Bool) (passed : String) (h : tape.Spells text)
    (hc : tape.Stands text c rest) :
  Repeats text (fun tape => passing p tape.capacity passed c tape) tape
  := by
  apply (passing_repeats p tape.capacity passed h hc).congr h
  intro later hlater
  rw [hlater.capacity]

theorem rest_repeats (h : tape.Spells text) (hc : tape.Stands text c rest) :
  Repeats text (fun tape => tape.rest c) tape
  := (passWhile_repeats (fun _ => true) "" h hc).map Prod.fst

end Formulary.Tape
