import Formulary.Proofs.Tape.Spelling

/-!
# What supplies give

Every supply gives some text: a list of code points gives its code points, and a reader of lines
comes to an end, since each code point it delivers uses up a byte.  The text is no longer than the
bound of the supply, so that the tape of the supply spells it, and the cursor at the beginning of
the tape stands before all of it (`Tape.Begins.exists_spells`).
-/

namespace Formulary

/-! ### Readers of lines -/

namespace LineReader

/-- The number of bytes that are still to be decoded. -/
def undecoded (r : LineReader) : Nat := r.line.length + r.unread.length

theorem length_cutLine (bytes : List UInt8) :
  (cutLine bytes).1.length + (cutLine bytes).2.length = bytes.length
  := by
  have hsplit := congrArg List.length
    (List.takeWhile_append_dropWhile (p := (· != Utf8.lineFeed)) (l := bytes))
  rw [List.length_append] at hsplit
  unfold cutLine
  cases h : bytes.dropWhile (· != Utf8.lineFeed) with
  | nil => simp
  | cons b rest =>
      rw [h, List.length_cons] at hsplit
      simp only [List.length_append, List.length_singleton]
      omega

/-- A code point that is delivered uses up a byte of the line. -/
theorem undecoded_deliver_lt {r : LineReader} {x : Char} (h : r.deliver.item = some x) :
  r.deliver.rest.undecoded < r.undecoded
  := by
  unfold deliver at h ⊢
  cases hd : Utf8.decodeOne r.line with
  | none =>
      rw [hd] at h
      cases h
  | some found =>
      have := Utf8.decodeOne_length_lt hd
      simp only [undecoded]
      omega

/-- Bytes that are read go into the line or are lost. -/
theorem undecoded_refill_le {r : LineReader} (h : r.line = []) :
  r.refill.rest.undecoded ≤ r.undecoded
  := by
  have hcut := length_cutLine r.unread
  have hline : r.undecoded = r.unread.length := by simp [undecoded, h]
  rw [hline]
  unfold refill
  cases r.failure with
  | none =>
      simp only
      split_ifs <;> simp only [take, finish, undecoded, List.length_nil] <;> omega
  | some reason =>
      simp only
      split_ifs <;> simp only [take, finish, undecoded, List.length_nil] <;> omega

theorem undecoded_next_lt {r : LineReader} {x : Char} (h : r.next.item = some x) :
  r.next.rest.undecoded < r.undecoded
  := by
  unfold next at h ⊢
  split_ifs at h ⊢ with hline
  · apply undecoded_deliver_lt h
  · have hle := undecoded_refill_le (r := r) (by simp_all)
    generalize r.refill = answer at h hle ⊢
    obtain ⟨item, failure, r'⟩ := answer
    cases item with
    | none => cases h
    | some _ =>
        have hlt : r'.deliver.rest.undecoded < r'.undecoded := undecoded_deliver_lt h
        apply Nat.lt_of_lt_of_le hlt hle

end LineReader

/-! ### Supplies -/

namespace Supply

theorem bound_next_lt {s : Supply} {x : Char} (h : s.next.item = some x) :
  s.next.rest.bound < s.bound
  := by
  cases s with
  | codePoints rest =>
      cases rest with
      | nil => cases h
      | cons y ys => apply Nat.lt_succ_self
  | lines reader => apply LineReader.undecoded_next_lt (r := reader) h

/-- Every supply comes to an end. -/
theorem exists_gives (s : Supply) :
  ∃ text, s.Gives text
  := by
  induction hn : s.bound using Nat.strong_induction_on generalizing s with
  | h n ih =>
      cases hitem : s.next.item with
      | none => exact ⟨[], .nothing hitem⟩
      | some x =>
          have hlt := bound_next_lt hitem
          rw [hn] at hlt
          obtain ⟨text, htext⟩ := ih _ hlt s.next.rest rfl
          exact ⟨x :: text, .more hitem htext⟩

theorem Gives.length_le_bound {s : Supply} {text : List Char} (h : s.Gives text) :
  text.length ≤ s.bound
  := by
  induction h with
  | nothing => apply Nat.zero_le
  | more item _ ih => apply Nat.lt_of_le_of_lt ih (bound_next_lt item)

end Supply

/-! ### Tapes of supplies -/

namespace Tape

/-- The tape of a supply spells what the supply gives, and its cursor stands before all of it. -/
theorem ofSupply_spells {supply : Supply} {text : List Char} (h : supply.Gives text) :
  (ofSupply supply).2.Spells text
    ∧ (ofSupply supply).2.Stands text (ofSupply supply).1 text
  := by
  have hspells : (Stream.ofSupply supply).Spells text := ⟨text, rfl, h⟩
  obtain ⟨hrequest, -, hitem⟩ := Stream.request_spells hspells rfl
  have hsize : (Stream.ofSupply supply).known.size = 0 := rfl
  rw [hsize] at hitem
  constructor
  · constructor
    · simpa [ofSupply] using hrequest
    · simpa [ofSupply] using h.length_le_bound
  · simp only [Stands, ofSupply, reached, source_recordFailure]
    cases hi : (Stream.ofSupply supply).request.item with
    | none =>
        rw [hi] at hitem
        apply List.eq_nil_of_length_eq_zero hitem
    | some i =>
        rw [hi] at hitem
        obtain ⟨rfl, hlt⟩ := hitem
        exact ⟨hlt, rfl⟩

/-- The beginning of a tape: that of a text, or of a stream of any supply. -/
inductive Begins : Cursor → Tape → Prop where
  | text (text : String) : Begins (ofText text).1 (ofText text).2
  | stream (supply : Supply) : Begins (ofSupply supply).1 (ofSupply supply).2

/-- At its beginning a tape spells some text and its cursor stands before all of it. -/
theorem Begins.exists_spells {start : Cursor} {tape : Tape} (h : Begins start tape) :
  ∃ text, tape.Spells text ∧ tape.Stands text start text
  := by
  cases h with
  | text text => exact ⟨text.toList, ofText_spells text, ofText_stands text⟩
  | stream supply =>
      obtain ⟨text, htext⟩ := supply.exists_gives
      exact ⟨text, ofSupply_spells htext⟩

end Tape

end Formulary
