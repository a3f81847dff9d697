import Formulary.Command
import Formulary.Proofs.Reading
import Formulary.Proofs.Tape.Recording

/-!
# Formulas in documents

A document is read line by line, and decoded as it is read.  What is read is nevertheless the text
that its bytes are decoded to as a whole, so that a formula in a file, or on the standard input, is
read as if that text had been given (`decoding_by_lines`).
-/

namespace Formulary

open Utf8 LineReader

/-- A reader of bytes delivers a text.  It gives the code points of the text one by one and nothing
after them, and reads no line before it is needed; once the text is used up it has read everything
and stays as it is.  A failure at the end of the bytes is met by the first call after the text, and
in a session it is reported once, with a warning, as soon as the end is asked for. -/
structure DeliversText (bytes : List UInt8) (failure : Option String) (text : List Char) :
    Prop where
  item : ∀ k, ((ofBytes bytes failure).after k).next.item = text[k]?
  unread : ∀ k, ((ofBytes bytes failure).after k).unread
    = bytes.drop ((ofBytes bytes failure).after k).consumed
  consumed : ∀ k ≤ text.length, IsLeast (enough bytes k) ((ofBytes bytes failure).after k).consumed
  exhausted : ∀ k, text.length < k → ((ofBytes bytes failure).after k).consumed = bytes.length
    ∧ (ofBytes bytes failure).after (k + 1) = (ofBytes bytes failure).after k
  failed : ∀ k, ((ofBytes bytes failure).after k).next.failure
    = if k = text.length then failure else none
  log : ∀ steps, ((Session.ofCursor (Tape.ofSupply (.lines (ofBytes bytes failure)))).run
      Tape.keeper steps).state.log.toList
    = if (Marks.start.run text.length steps).furthest = text.length then
        (failure.map Event.readFailed).toList
      else []
  warned : ∀ steps, ∀ event ∈ ((Session.ofCursor
      (Tape.ofSupply (.lines (ofBytes bytes failure)))).run Tape.keeper steps).state.log,
    event.level = .warn

theorem delivers_kept (bytes : List UInt8) (failure : Option String) :
  DeliversText bytes failure (decodeLossy (kept failure bytes))
  := by
  rw [← text_ofBytes]
  have hlog := Tape.log_session_lines (ofBytes bytes failure) rfl
  refine ⟨item_after _, ?_, ?_, ?_, next_failure_after rfl, hlog, ?_⟩
  · intro k
    rcases Nat.lt_or_ge (ofBytes bytes failure).text.length k with hlt | hle
    · obtain ⟨hconsumed, hunread⟩ := consumed_after_of_lt bytes failure hlt
      rw [hconsumed, hunread, List.drop_length]
    · apply (reads_after bytes failure hle).unread
  · intro k hk
    apply (reads_after bytes failure hk).consumed
  · intro k hk
    exact ⟨(consumed_after_of_lt bytes failure hk).1, after_succ_of_lt rfl hk⟩
  · intro steps event hevent
    rw [← Array.mem_toList_iff, hlog] at hevent
    have hfailed : event ∈ ((ofBytes bytes failure).failure.map Event.readFailed).toList := by
      split_ifs at hevent
      · apply hevent
      · cases hevent
    obtain ⟨reason, -, rfl⟩ := Option.map_eq_some_iff.mp (Option.mem_toList.mp hfailed)
    exact Event.level_eq_warn_iff.mpr (.inr (.inl ⟨reason, rfl⟩))

/-- A formula in the lines of a reader that does not fail is that in its decoded bytes. -/
theorem readFormula_lines (bytes : List UInt8) :
  (readFormula (Tape.ofSupply (.lines (ofBytes bytes none))).1
      (Tape.ofSupply (.lines (ofBytes bytes none))).2).1
    = (parseFormula (String.ofList (decodeLossy bytes))).1
  := by
  have hgives := Supply.gives_lines (ofBytes bytes none)
  rw [text_ofBytes] at hgives
  obtain ⟨hspells, hstands⟩ := Tape.ofSupply_spells hgives
  rw [readFormula_eq hspells hstands, parseFormula_eq, String.toList_ofList]
  rfl

theorem parseDocument_file (path : String) (bytes : List UInt8) :
  (parseDocument path (.file bytes)).1 = (parseFormula (String.ofList (decodeLossy bytes))).1
  := by rw [← readFormula_lines, parseDocument, Document.tape]

/-- A hyphen stands for the formula on the standard input. -/
theorem runProp_standardInput {m : Type → Type} [Monad m] [LawfulMonad m]
    (parse : String → Except String Json) (documentAt : String → m Document)
    (input : m (List UInt8)) :
  Command.runProp parse documentAt input (.run ⟨none, "-"⟩)
    = (fun bytes => Command.simplified ∅ (parseDocument "-" (.file bytes))) <$> input
  := by
  have hlog : Environment.Loaded.nothing.log = #[] := rfl
  rw [Command.runProp]
  simp only [Command.answerFormula, if_true, hlog, Array.empty_append, bind_pure_comp, map_pure]
  rfl

/-- Bytes are read line by line to the same code points to which they are decoded as a whole; where
reading fails after them, those of the whole lines are read.  So a formula that is read from the
bytes of a file or of the standard input is that of the decoded text.  Of the reader of command
lines it is only supposed that it takes a hyphen alone for the formula. -/
theorem decoding_by_lines (bytes : List UInt8) :
  DeliversText bytes none (decodeLossy bytes)
    ∧ (∀ reason, DeliversText bytes (some reason) (decodeLossy (wholeLines bytes)))
    ∧ (wholeLines bytes <+: bytes ∧ EndsLine (wholeLines bytes)
        ∧ ∀ p, p <+: bytes → EndsLine p → p <+: wholeLines bytes)
    ∧ (readFormula (Tape.ofSupply (.lines (ofBytes bytes none))).1
          (Tape.ofSupply (.lines (ofBytes bytes none))).2).1
        = (parseFormula (String.ofList (decodeLossy bytes))).1
    ∧ (∀ path, (parseDocument path (.file bytes)).1
        = (parseFormula (String.ofList (decodeLossy bytes))).1)
    ∧ ∀ (request : List String → Command.Request Command.Simplification),
        request ["-"] = .run ⟨none, "-"⟩ →
        ∀ parse documentAt, Command.runProp (m := Id) parse documentAt bytes (request ["-"])
          = Command.simplified ∅ ((parseFormula (String.ofList (decodeLossy bytes))).1,
              (parseDocument "-" (.file bytes)).2)
  := by
  refine ⟨delivers_kept bytes none, fun reason => delivers_kept bytes (some reason),
    wholeLines_longest bytes, readFormula_lines bytes, fun path => parseDocument_file path bytes,
    ?_⟩
  intro request hrequest parse documentAt
  rw [hrequest, runProp_standardInput, ← parseDocument_file "-"]
  rfl

/-- Two lines, the second of which holds the beginning of a code point, and the beginning of another
code point after them.  As the standard input they are answered as the text `a` with what remains
after it. -/
theorem decoding_by_lines_unfinished :
  let bytes : List UInt8 := [0x61, 0x0A, 0xC3, 0x0A, 0xE2, 0x82]
  DeliversText bytes none ['a', '\n', '\uFFFD', '\n', '\uFFFD']
    ∧ DeliversText bytes (some "gone") ['a', '\n', '\uFFFD', '\n']
    ∧ [0x61, 0x0A] <+: bytes ∧ EndsLine [0x61, 0x0A] ∧ [0x61, 0x0A] <+: wholeLines bytes
    ∧ ∀ parse documentAt, Command.runProp (m := Id) parse documentAt bytes
          (Command.simplification none none ["-"])
        = Command.simplified ∅ ((parseFormula "a\n\uFFFD\n\uFFFD").1,
            (parseDocument "-" (.file bytes)).2)
  := by
  intro bytes
  obtain ⟨hall, hwhole, ⟨-, -, hlongest⟩, -, -, hinput⟩ := decoding_by_lines bytes
  have hdecoded : decodeLossy bytes = ['a', '\n', '\uFFFD', '\n', '\uFFFD'] := by
    simp [bytes, decodeLossy, decodeOne, lead?, complete, replacement]
  have hlines : decodeLossy (wholeLines bytes) = ['a', '\n', '\uFFFD', '\n'] := by
    have hbytes : wholeLines bytes = [0x61, 0x0A, 0xC3, 0x0A] := by decide
    simp [hbytes, decodeLossy, decodeOne, lead?, complete, replacement]
  rw [hdecoded] at hall hinput
  have hkept := hwhole "gone"
  rw [hlines] at hkept
  have hanswer := hinput (Command.simplification none none) (by decide)
  exact ⟨hall, hkept, by decide, by decide, hlongest _ (by decide) (by decide), hanswer⟩

end Formulary
