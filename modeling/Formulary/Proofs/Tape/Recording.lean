import Formulary.Proofs.Tape.LineReading
import Formulary.Proofs.Tape.Session

/-!
# What is recorded while a tape is read

The log of a tape holds the failures that the requests for its code points have met, whatever was
done with its cursors (`Tape.session_induction`).  A supply of lines meets at most one failure, at
its end, so that it is recorded when the end is asked for and never again
(`Tape.log_session_lines`).
-/

namespace Formulary

/-! ### Supplies of lines -/

namespace Supply

/-- The supply after `k` requests. -/
def after (s : Supply) : Nat → Supply
  | 0 => s
  | k + 1 => (s.after k).next.rest

/-- The reports of the failures that are met in the first `k` requests. -/
def failures (s : Supply) : Nat → List Event
  | 0 => []
  | k + 1 => s.failures k ++ ((s.after k).next.failure.map Event.readFailed).toList

/-- A supply of lines gives what its reader delivers. -/
theorem gives_lines (r : LineReader) :
  (lines r).Gives r.text
  := by
  induction htext : r.text generalizing r with
  | nil =>
      apply Gives.nothing
      simp only [next, (r.next_delivers).item, htext, List.head?_nil]
  | cons x xs ih =>
      apply Gives.more
      · simp only [next, (r.next_delivers).item, htext, List.head?_cons]
      · apply ih r.next.rest
        rw [(r.next_delivers).text, htext, List.tail_cons]

theorem after_lines (r : LineReader) (k : Nat) :
  (lines r).after k = lines (r.after k)
  := by
  induction k with
  | zero => rfl
  | succ k ih => rw [after, ih, LineReader.after, next]

/-- The only failure of a supply of lines is met after the last code point. -/
theorem failures_lines {r : LineReader} (h : r.finished = false) (k : Nat) :
  (lines r).failures k = if r.text.length < k then (r.failure.map Event.readFailed).toList else []
  := by
  induction k with
  | zero => rfl
  | succ k ih =>
      rw [failures, ih, after_lines, next]
      simp only [LineReader.next_failure_after h]
      rcases Nat.lt_trichotomy k r.text.length with hlt | rfl | hlt
      · rw [if_neg (by omega), if_neg (by omega), if_neg (by omega)]
        rfl
      · rw [if_neg (by omega), if_pos rfl, if_pos (by omega)]
        rfl
      · rw [if_pos hlt, if_neg (by omega), if_pos (by omega)]
        simp

end Supply

namespace Tape

variable {tape : Tape} {supply : Supply}

/-- A stream of the supply whose log holds the failures that its requests have met, and nothing
else. -/
structure Records (supply : Supply) (tape : Tape) : Prop where
  source : ∃ s, tape.source = .stream s ∧ s.feed.supply = supply.after tape.requests
  log : tape.log.toList = supply.failures tape.requests

theorem toList_log_recordFailure (tape : Tape) (failure : Option String) :
  (tape.recordFailure failure).log.toList
    = tape.log.toList ++ (failure.map Event.readFailed).toList
  := by
  cases failure with
  | none => simp [recordFailure]
  | some reason => simp [recordFailure, record]

/-- A request takes one more answer of the supply, and its failure is put into the log. -/
theorem records_request {s : Stream} {capacity : Nat} {log : Log}
    (hfeed : s.feed.supply = supply.after s.feed.requests)
    (hlog : log.toList = supply.failures s.feed.requests) :
  Records supply (recordFailure ⟨.stream s.request.rest, capacity, log⟩ s.request.failure)
  := by
  have hrequest : s.request.rest.feed = ⟨s.feed.supply.next.rest, s.feed.requests + 1⟩
      ∧ s.request.failure = s.feed.supply.next.failure := by
    simp only [Stream.request, Feed.next]
    cases s.feed.supply.next.item <;> exact ⟨rfl, rfl⟩
  obtain ⟨hfeed', hfailure⟩ := hrequest
  have hrequests : (recordFailure ⟨.stream s.request.rest, capacity, log⟩
      s.request.failure).requests = s.feed.requests + 1 := by
    simp only [requests, source_recordFailure, hfeed']
  constructor
  · rw [source_recordFailure, hrequests]
    refine ⟨_, rfl, ?_⟩
    rw [hfeed', Supply.after, hfeed]
  · rw [toList_log_recordFailure, hrequests, Supply.failures, hfailure, hfeed, hlog]

theorem Records.after (h : Records supply tape) (i : Nat) :
  Records supply (tape.after i).2
  := by
  obtain ⟨source, capacity, log⟩ := tape
  obtain ⟨⟨s, rfl, hfeed⟩, hlog⟩ := h
  simp only [Tape.after, Stream.after]
  split_ifs
  · exact ⟨⟨s, rfl, hfeed⟩, hlog⟩
  · exact ⟨⟨s, rfl, hfeed⟩, hlog⟩
  · apply records_request hfeed hlog

theorem records_ofSupply (supply : Supply) :
  Records supply (ofSupply supply).2
  := records_request (s := Stream.ofSupply supply) rfl rfl

/-- What asking for the next position keeps true, advancing a cursor keeps true. -/
theorem advance_induction {Q : Tape → Prop} (hQ : ∀ tape i, Q tape → Q (tape.after i).2)
    (h : Q tape) (c : Cursor) :
  Q (tape.advance c).2
  := by
  unfold advance
  cases c.position with
  | none => apply h
  | some i => apply hQ tape i h

theorem passLoop_induction {Q : Tape → Prop} (hQ : ∀ tape i, Q tape → Q (tape.after i).2)
    (h : Q tape) (p : Char → Bool) (fuel : Nat) (passed : String) (c : Cursor) :
  Q (passLoop p fuel passed c tape).2.2
  := by
  induction fuel generalizing tape c passed with
  | zero => apply h
  | succ fuel ih =>
      rw [passLoop]
      split
      · apply h
      · split_ifs
        · apply ih (advance_induction hQ h c)
        · apply h

/-- What asking for the next position keeps true holds throughout a session. -/
theorem session_induction {Q : Tape → Prop} (hQ : ∀ tape i, Q tape → Q (tape.after i).2)
    {s : Session Tape} (h : Q s.state) (steps : List Step) :
  Q (s.run keeper steps).state
  := by
  induction steps generalizing s with
  | nil => apply h
  | cons step steps ih =>
      apply ih
      unfold Session.perform
      cases s.cursors[step.cursor]? with
      | none => apply h
      | some c =>
          obtain ⟨deed, cursor⟩ := step
          cases deed with
          | advance | follow => apply advance_induction hQ h c
          | rest => apply passLoop_induction hQ h
          | copy | reset | drop => apply h

/-- In a session on lines the log is empty until the end is asked for, and then holds the failure
met there, if there is one. -/
theorem log_session_lines (r : LineReader) (h : r.finished = false) (steps : List Step) :
  ((Session.ofCursor (ofSupply (.lines r))).run keeper steps).state.log.toList
    = if (Marks.start.run r.text.length steps).furthest = r.text.length then
        (r.failure.map Event.readFailed).toList
      else []
  := by
  have hfollows := (follows_start (Supply.gives_lines r)).run (faithful r.text) steps
  have hle := hfollows.within.furthest_le
  have hrecords := session_induction (Q := Records (.lines r)) (fun _ i hQ => hQ.after i)
    (s := Session.ofCursor (ofSupply (.lines r))) (records_ofSupply _) steps
  rw [hrecords.log, hfollows.keeps.requests, Supply.failures_lines h]
  congr 1
  rw [eq_iff_iff]
  omega

end Tape

end Formulary
