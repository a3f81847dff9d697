import Formulary.Proofs.Text.Decoding
import Formulary.Tape.LineReader
import Mathlib.Order.Bounds.Basic

/-!
# What readers of lines deliver

A reader of lines decodes each line when it comes to it, and yet delivers the code points to which
its bytes are decoded as a whole, since a line feed is never inside a piece of bytes
(`next_delivers`).  It reads no line before a code point of it is asked for (`Reads`).

What a call can come to is said once, in `Replies`.  Both facts go through its cases.
-/

namespace Formulary

namespace LineReader

open Utf8

variable {r : LineReader} {bytes line rest : List UInt8} {failure : Option String}

/-! ### Lines -/

/-- The bytes that count: all of them, or, where reading fails after them, the whole lines. -/
def kept (failure : Option String) (bytes : List UInt8) : List UInt8 :=
  if failure.isSome then wholeLines bytes else bytes

theorem kept_append (h : EndsLine bytes) (later : List UInt8) :
  kept failure (bytes ++ later) = bytes ++ kept failure later
  := by
  unfold kept
  split_ifs
  · apply wholeLines_append h
  · rfl

/-- Bytes without a line feed count only where reading does not fail. -/
theorem kept_of_not_mem (failure : Option String) (h : lineFeed ∉ bytes) :
  kept failure bytes = if failure.isSome then [] else bytes
  := by
  unfold kept
  congr 1
  rw [wholeLines, List.rdropWhile_eq_nil_iff]
  intro b hb
  rw [bne_iff_ne]
  rintro rfl
  exact h hb

/-- The first line goes to the first line feed, or to the end where there is none. -/
theorem cutLine_cases (bytes : List UInt8) :
  (lineFeed ∉ bytes ∧ cutLine bytes = (bytes, []))
    ∨ ∃ line rest, lineFeed ∉ line ∧ bytes = line ++ [lineFeed] ++ rest
        ∧ cutLine bytes = (line ++ [lineFeed], rest)
  := by
  have hsplit := List.takeWhile_append_dropWhile (p := (· != lineFeed)) (l := bytes)
  have hline : lineFeed ∉ bytes.takeWhile (· != lineFeed) := by
    intro hmem
    simpa using List.mem_takeWhile_imp hmem
  unfold cutLine
  cases hdrop : bytes.dropWhile (· != lineFeed) with
  | nil =>
      left
      rw [hdrop, List.append_nil] at hsplit
      rw [hsplit] at hline
      exact ⟨hline, rfl⟩
  | cons b rest =>
      right
      have hb : b = lineFeed := by
        have := List.head?_dropWhile_not (p := (· != lineFeed)) bytes
        rw [hdrop] at this
        simpa using this
      subst hb
      rw [hdrop] at hsplit
      refine ⟨_, rest, hline, ?_, rfl⟩
      rw [List.append_assoc, List.singleton_append, hsplit]

/-- What a call comes to: a code point of the current line, of the next line, or of an unfinished
last line; the end, where nothing more counts; or nothing, once reading is over. -/
inductive Replies (r : LineReader) : Answer Char LineReader → Prop where
  | current (hline : r.line ≠ []) : Replies r r.deliver
  | whole {line rest : List UInt8} (hused : r.line = []) (hfinished : r.finished = false)
      (hline : lineFeed ∉ line) (hunread : r.unread = line ++ [lineFeed] ++ rest) :
      Replies r (r.take (line ++ [lineFeed]) rest).deliver
  | last (hused : r.line = []) (hfinished : r.finished = false) (hline : lineFeed ∉ r.unread)
      (hne : r.unread ≠ []) (hfailure : r.failure = none) :
      Replies r (r.take r.unread []).deliver
  | ended (hused : r.line = []) (hfinished : r.finished = false)
      (hkept : kept r.failure r.unread = []) :
      Replies r ⟨none, r.failure, r.finish r.unread⟩
  | finished (hused : r.line = []) (hfinished : r.finished = true) : Replies r ⟨none, none, r⟩

/-- A reader that has used up its line goes on with the next one, or finishes. -/
theorem replies_of_refill (hused : r.line = []) (hfinished : r.finished = false) :
  Replies r r.next
  := by
  simp only [next, hused, hfinished, List.isEmpty_nil, Bool.not_true, Bool.or_self,
    Bool.false_eq_true, if_false, refill]
  obtain ⟨hline, hcut⟩ | ⟨line, rest, hline, hunread, hcut⟩ := cutLine_cases r.unread
  · have hlast : r.unread.getLast? ≠ some lineFeed := fun hlast =>
      hline (List.mem_of_getLast? hlast)
    have hkept := kept_of_not_mem r.failure hline
    simp only [hcut, hlast, if_false]
    cases hfailure : r.failure with
    | some reason =>
        rw [hfailure, Option.isSome_some, if_pos rfl, ← hfailure] at hkept
        have hended := Replies.ended hused hfinished hkept
        rw [hfailure] at hended
        apply hended
    | none =>
        rw [hfailure, Option.isSome_none, if_neg Bool.false_ne_true, ← hfailure] at hkept
        by_cases hnil : r.unread = []
        · have hended := Replies.ended hused hfinished (hkept.trans hnil)
          rw [hnil, hfailure] at hended
          simp only [hnil, List.isEmpty_nil, if_true]
          apply hended
        · simp only [List.isEmpty_eq_false_iff.mpr hnil, Bool.false_eq_true, if_false]
          apply Replies.last hused hfinished hline hnil hfailure
  · have hlast : (line ++ [lineFeed]).getLast? = some lineFeed := by simp
    simp only [hcut, hlast, if_true]
    apply Replies.whole hused hfinished hline hunread

theorem next_replies (r : LineReader) :
  Replies r r.next
  := by
  by_cases hline : r.line = []
  · cases hfinished : r.finished with
    | false => apply replies_of_refill hline hfinished
    | true =>
        have hnext : r.next = ⟨none, none, r⟩ := by
          simp [next, hfinished, deliver, hline, decodeOne]
        rw [hnext]
        apply Replies.finished hline hfinished
  · have hnext : r.next = r.deliver := by simp [next, hline]
    rw [hnext]
    apply Replies.current hline

/-! ### Code points -/

/-- What a reader is going to deliver. -/
def text (r : LineReader) : List Char :=
  decodeLossy r.line ++ if r.finished then [] else decodeLossy (kept r.failure r.unread)

/-- What a call has to come to, by what there was to deliver. -/
structure Delivers (r : LineReader) (answer : Answer Char LineReader) : Prop where
  item : answer.item = r.text.head?
  text : answer.rest.text = r.text.tail
  failure : answer.failure = if r.finished = false ∧ r.text = [] then r.failure else none
  kept : answer.rest.failure = r.failure
  finished : answer.rest.finished = (r.finished || r.text.isEmpty)

theorem deliver_delivers (h : r.line ≠ []) :
  Delivers r r.deliver
  := by
  unfold deliver
  cases hone : decodeOne r.line with
  | none => exact absurd (decodeOne_eq_none_iff.mp hone) h
  | some found =>
      obtain ⟨piece, rest⟩ := found
      have htext : r.text = piece.getD replacement
          :: ({ r with line := rest } : LineReader).text := by
        rw [LineReader.text, decodeLossy_of_decodeOne hone, List.cons_append]
        rfl
      constructor <;> simp [htext]

theorem text_of_used (hused : r.line = []) (hfinished : r.finished = false) :
  r.text = decodeLossy (LineReader.kept r.failure r.unread)
  := by simp [LineReader.text, hused, hfinished]

/-- A line that is taken adds nothing to what there is to deliver, and takes nothing from it. -/
theorem Delivers.of_take {answer : Answer Char LineReader} (h : Delivers (r.take line rest) answer)
    (hused : r.line = []) (hfinished : r.finished = false)
    (htext : decodeLossy (LineReader.kept r.failure r.unread)
      = decodeLossy line ++ decodeLossy (LineReader.kept r.failure rest)) :
  Delivers r answer
  := by
  have htake : (r.take line rest).text = r.text := by
    rw [text_of_used hused hfinished, htext]
    rfl
  obtain ⟨hitem, hrest, hfailure, hkept, hends⟩ := h
  rw [htake] at hitem hrest hfailure hends
  refine ⟨hitem, hrest, ?_, hkept, ?_⟩
  · rw [hfailure, hfinished]
    rfl
  · rw [hends, hfinished]
    rfl

theorem next_delivers (r : LineReader) :
  Delivers r r.next
  := by
  have hreplies := next_replies r
  generalize r.next = answer at hreplies ⊢
  cases hreplies with
  | current hline => apply deliver_delivers hline
  | @whole line rest hused hfinished _ hunread =>
      have hends : EndsLine (line ++ [lineFeed]) := by simp [EndsLine]
      have hdelivers := deliver_delivers (r := r.take (line ++ [lineFeed]) rest) (by simp [take])
      apply hdelivers.of_take hused hfinished
      rw [hunread, kept_append hends, decodeLossy_append hends]
  | last hused hfinished _ hne hfailure =>
      have hdelivers := deliver_delivers (r := r.take r.unread []) hne
      apply hdelivers.of_take hused hfinished
      simp [LineReader.kept, hfailure]
  | ended hused hfinished hkept =>
      have htext : r.text = [] := by rw [text_of_used hused hfinished, hkept, decodeLossy_nil]
      have hend : (r.finish r.unread).text = [] := by simp [LineReader.text, finish]
      refine ⟨by rw [htext]; rfl, hend.trans (by rw [htext]; rfl), ?_, rfl, by simp [htext, finish]⟩
      rw [if_pos ⟨hfinished, htext⟩]
  | finished hused hfinished =>
      have htext : r.text = [] := by simp [LineReader.text, hused, hfinished]
      constructor <;> simp [htext, hfinished]

/-- The reader after `k` calls. -/
def after (r : LineReader) : Nat → LineReader
  | 0 => r
  | k + 1 => (r.after k).next.rest

theorem text_after (r : LineReader) (k : Nat) :
  (r.after k).text = r.text.drop k
  := by
  induction k with
  | zero => rfl
  | succ k ih => rw [after, (next_delivers _).text, ih, List.tail_drop]

theorem failure_after (r : LineReader) (k : Nat) :
  (r.after k).failure = r.failure
  := by
  induction k with
  | zero => rfl
  | succ k ih => rw [after, (next_delivers _).kept, ih]

/-- Reading is over one call after the last code point. -/
theorem finished_after (h : r.finished = false) (k : Nat) :
  (r.after k).finished = decide (r.text.length < k)
  := by
  induction k with
  | zero => simpa [after] using h
  | succ k ih =>
      have hnone : (r.text.drop k).isEmpty = decide (r.text.length ≤ k) := by
        rw [Bool.eq_iff_iff, List.isEmpty_iff, List.drop_eq_nil_iff, decide_eq_true_eq]
      rw [after, (next_delivers _).finished, ih, text_after, hnone, ← Bool.decide_or,
        decide_eq_decide]
      omega

/-- The code points are those there were to deliver, one for each call, and none after them. -/
theorem item_after (r : LineReader) (k : Nat) :
  (r.after k).next.item = r.text[k]?
  := by rw [(next_delivers _).item, text_after, List.head?_drop]

/-- The failure is met once, after the last code point. -/
theorem next_failure_after (h : r.finished = false) (k : Nat) :
  (r.after k).next.failure = if k = r.text.length then r.failure else none
  := by
  have hfirst : (r.after k).finished = false ∧ (r.after k).text = [] ↔ k = r.text.length := by
    rw [finished_after h, text_after, decide_eq_false_iff_not, List.drop_eq_nil_iff]
    omega
  rw [(next_delivers _).failure, failure_after]
  simp only [hfirst]

/-- Once reading is over nothing happens any more. -/
theorem after_succ_of_lt (h : r.finished = false) {k : Nat} (hk : r.text.length < k) :
  r.after (k + 1) = r.after k
  := by
  have hfinished : (r.after k).finished = true := by
    rw [finished_after h, decide_eq_true hk]
  have htext : (r.after k).text = [] := by
    rw [text_after, List.drop_eq_nil_of_le (Nat.le_of_lt hk)]
  have hused : (r.after k).line = [] := by
    rw [LineReader.text, if_pos hfinished, List.append_nil] at htext
    apply decodeLossy_eq_nil_iff.mp htext
  have hnext : (r.after k).next = ⟨none, none, r.after k⟩ := by
    simp [next, hfinished, deliver, hused, decodeOne]
  rw [after, hnext]

/-! ### Bytes -/

/-- A position up to which bytes may be read: after a line feed, at the beginning or at the end. -/
def IsCut (bytes : List UInt8) (p : Nat) : Prop := EndsLine (bytes.take p) ∨ p = bytes.length

/-- The positions up to which enough bytes are read for `k` code points. -/
def enough (bytes : List UInt8) (k : Nat) : Set Nat :=
  {p | IsCut bytes p ∧ k ≤ (decodeLossy (bytes.take p)).length}

/-- A reader of `bytes` that has delivered `k` code points and is not done.  It has read no more
lines than it needed to. -/
structure Reads (bytes : List UInt8) (k : Nat) (r : LineReader) : Prop where
  unfinished : r.finished = false
  within : r.consumed ≤ bytes.length
  unread : r.unread = bytes.drop r.consumed
  count : (decodeLossy (bytes.take r.consumed)).length = k + (decodeLossy r.line).length
  consumed : IsLeast (enough bytes k) r.consumed

theorem reads_ofBytes (bytes : List UInt8) (failure : Option String) :
  Reads bytes 0 (ofBytes bytes failure)
  := by
  refine ⟨rfl, Nat.zero_le _, rfl, by simp [ofBytes], ?_, fun p _ => Nat.zero_le p⟩
  exact ⟨.inl endsLine_nil, Nat.zero_le _⟩

theorem Reads.consumed_add {k : Nat} (h : Reads bytes k r) :
  r.consumed + r.unread.length = bytes.length
  := by rw [h.unread, List.length_drop, Nat.add_sub_cancel' h.within]

/-- A code point of the line is delivered, and no byte is read. -/
theorem reads_deliver {k : Nat} (hline : r.line ≠ []) (hunfinished : r.finished = false)
    (hwithin : r.consumed ≤ bytes.length) (hunread : r.unread = bytes.drop r.consumed)
    (hcount : (decodeLossy (bytes.take r.consumed)).length = k + (decodeLossy r.line).length)
    (hconsumed : IsLeast (enough bytes (k + 1)) r.consumed) :
  Reads bytes (k + 1) r.deliver.rest
  := by
  unfold deliver
  cases hone : decodeOne r.line with
  | none => exact absurd (decodeOne_eq_none_iff.mp hone) hline
  | some found =>
      obtain ⟨piece, rest⟩ := found
      refine ⟨hunfinished, hwithin, hunread, ?_, hconsumed⟩
      rw [hcount, decodeLossy_of_decodeOne hone, List.length_cons]
      simp only
      omega

/-- More bytes are decoded to no fewer code points, where they were cut. -/
theorem length_decodeLossy_le {p q : Nat} (hp : IsCut bytes p) (hpq : p ≤ q)
    (hq : q ≤ bytes.length) :
  (decodeLossy (bytes.take p)).length ≤ (decodeLossy (bytes.take q)).length
  := by
  rcases hp with hp | rfl
  · have hsplit : bytes.take q = bytes.take p ++ (bytes.take q).drop p := by
      conv_lhs => rw [← List.take_append_drop p (bytes.take q), List.take_take, Nat.min_eq_left hpq]
    rw [hsplit, decodeLossy_append hp, List.length_append]
    apply Nat.le_add_right
  · obtain rfl : q = bytes.length := by omega
    apply Nat.le_refl

/-- Where there is no line feed, bytes are not cut before their end. -/
theorem not_isCut {c p q : Nat} (hline : lineFeed ∉ (bytes.drop c).take q) (hc : c < p)
    (hq : p ≤ c + q) (hlt : p < bytes.length) :
  ¬IsCut bytes p
  := by
  rintro (hends | hend)
  · have hget : bytes[p - 1]? = some bytes[p - 1] := List.getElem?_eq_getElem (by omega)
    have hlast : (bytes.take p).getLast? = some bytes[p - 1] := by
      rw [List.getLast?_take, if_neg (by omega), hget]
      rfl
    apply hline
    apply List.mem_of_getElem? (i := p - 1 - c)
    rw [List.getElem?_take_of_lt (by omega), List.getElem?_drop, Nat.add_sub_cancel' (by omega),
      hget, hends _ hlast]
  · omega

/-- A line is taken where the one before is used up, and its first code point is delivered. -/
theorem Reads.taken {k : Nat} (h : Reads bytes k r) (hused : r.line = [])
    (hunread : r.unread = line ++ rest) (hne : line ≠ [])
    (hcut : IsCut bytes (r.consumed + line.length))
    (hbetween : ∀ p, r.consumed < p → p < r.consumed + line.length → ¬IsCut bytes p) :
  Reads bytes (k + 1) (r.take line rest).deliver.rest
  := by
  have hdrop : bytes.drop r.consumed = line ++ rest := h.unread.symm.trans hunread
  have hlength := h.consumed_add
  rw [hunread, List.length_append] at hlength
  have hpos : 0 < line.length := List.length_pos_iff.mpr hne
  have hbefore : EndsLine (bytes.take r.consumed) := by
    rcases h.consumed.1.1 with hends | hend
    · apply hends
    · omega
  have hk : (decodeLossy (bytes.take r.consumed)).length = k := by
    rw [h.count, hused, decodeLossy_nil]
    rfl
  have hcount : (decodeLossy (bytes.take (r.consumed + line.length))).length
      = k + (decodeLossy line).length := by
    rw [List.take_add, hdrop, List.take_left, decodeLossy_append hbefore, List.length_append, hk]
  have hsome := decodeLossy_length_pos hne
  apply reads_deliver (r := r.take line rest) hne rfl
  · simp only [take]
    omega
  · simp only [take]
    rw [← List.drop_drop, hdrop, List.drop_left]
  · apply hcount
  · constructor
    · exact ⟨hcut, by simp only [take]; omega⟩
    · rintro p ⟨hp, henough⟩
      by_contra hlt
      have hlt : p < r.consumed + line.length := Nat.not_le.mp hlt
      by_cases hpc : p ≤ r.consumed
      · have := length_decodeLossy_le hp hpc h.within
        omega
      · apply hbetween p (Nat.not_le.mp hpc) hlt hp

/-- As long as there is something to deliver, no more is read than is needed for it. -/
theorem Reads.next {k : Nat} (h : Reads bytes k r) (htext : r.text ≠ []) :
  Reads bytes (k + 1) r.next.rest
  := by
  have hreplies := next_replies r
  generalize r.next = answer at hreplies ⊢
  cases hreplies with
  | current hline =>
      have hsome := decodeLossy_length_pos hline
      apply reads_deliver hline h.unfinished h.within h.unread h.count
      constructor
      · exact ⟨h.consumed.1.1, by rw [h.count]; omega⟩
      · rintro p ⟨hp, henough⟩
        apply h.consumed.2 ⟨hp, Nat.le_of_succ_le henough⟩
  | @whole line rest hused _ hline hunread =>
      have hdrop : bytes.drop r.consumed = line ++ [lineFeed] ++ rest :=
        h.unread.symm.trans hunread
      have hlength := h.consumed_add
      simp only [hunread, List.length_append, List.length_singleton] at hlength
      apply h.taken hused hunread (by simp)
      · left
        rw [List.take_add, hdrop, List.take_left]
        simp [EndsLine]
      · intro p hc hp
        rw [List.length_append, List.length_singleton] at hp
        apply not_isCut (q := line.length) _ hc (by omega) (by omega)
        rw [hdrop, List.append_assoc, List.take_left]
        apply hline
  | last hused _ hline hne _ =>
      have hlength := h.consumed_add
      apply h.taken hused (List.append_nil _).symm hne
      · exact .inr hlength
      · intro p hc hp
        apply not_isCut (q := r.unread.length) _ hc (Nat.le_of_lt hp) (by omega)
        rw [← h.unread, List.take_length]
        apply hline
  | ended hused hfinished hkept =>
      rw [text_of_used hused hfinished, hkept, decodeLossy_nil] at htext
      exact absurd rfl htext
  | finished hused hfinished =>
      rw [h.unfinished] at hfinished
      cases hfinished

theorem finished_deliver (r : LineReader) :
  r.deliver.rest.finished = r.finished
  := by
  unfold deliver
  cases decodeOne r.line <;> rfl

/-- Where there is nothing more to deliver, the next call takes all that is left. -/
theorem Reads.next_of_text_eq_nil {k : Nat} (h : Reads bytes k r) (htext : r.text = []) :
  r.next.rest.consumed = bytes.length ∧ r.next.rest.unread = []
  := by
  have hreplies := next_replies r
  have hfinished : r.next.rest.finished = true := by simp [(next_delivers r).finished, htext]
  generalize r.next = answer at hreplies hfinished ⊢
  cases hreplies with
  | current _ | whole _ _ _ _ | last _ _ _ _ _ =>
      simp [finished_deliver, take, h.unfinished] at hfinished
  | ended _ _ _ => exact ⟨h.consumed_add, rfl⟩
  | finished _ hfinished =>
      rw [h.unfinished] at hfinished
      cases hfinished

section ofBytes

variable (bytes : List UInt8) (failure : Option String) {k : Nat}

/-- A reader of bytes delivers what those of them that count are decoded to. -/
theorem text_ofBytes :
  (ofBytes bytes failure).text = decodeLossy (kept failure bytes)
  := by simp [LineReader.text, ofBytes]

theorem reads_after (hk : k ≤ (ofBytes bytes failure).text.length) :
  Reads bytes k ((ofBytes bytes failure).after k)
  := by
  induction k with
  | zero => apply reads_ofBytes
  | succ k ih =>
      apply (ih (Nat.le_of_succ_le hk)).next
      rw [text_after, Ne, List.drop_eq_nil_iff]
      omega

/-- All bytes are read once the end is reached. -/
theorem consumed_after_of_lt (hk : (ofBytes bytes failure).text.length < k) :
  ((ofBytes bytes failure).after k).consumed = bytes.length
    ∧ ((ofBytes bytes failure).after k).unread = []
  := by
  induction k, hk using Nat.le_induction with
  | base =>
      apply (reads_after bytes failure (Nat.le_refl _)).next_of_text_eq_nil
      rw [text_after, List.drop_length]
  | succ k hk ih =>
      rw [after_succ_of_lt rfl hk]
      apply ih

end ofBytes

end LineReader

end Formulary
