/-!
# Decoding bytes

`decodeOne` takes the first piece of a byte sequence: a code point in its UTF-8 form, or the longest
run of bytes that starts such a form without completing it, or else a single byte.  `decodeLossy`
reads a whole sequence this way and puts U+FFFD for every piece that is no code point.  The bytes
left by `decodeOne` are fewer than it was given (`decodeOne_length_lt`), so the reading ends.
-/

namespace Formulary.Utf8

/-- The code point that stands for a piece of bytes that is no code point. -/
def replacement : Char := '\uFFFD'

/-- The byte of a line feed. -/
def lineFeed : UInt8 := 0x0A

/-- What a lead byte announces: its share of the code point, the number of bytes that follow, and
the range of the first of these. -/
structure Lead where
  share : Nat
  following : Nat
  least : UInt8
  greatest : UInt8

/-- The announcement of a lead byte of two to four bytes.  The range of the second byte excludes
overlong forms, surrogates and values beyond U+10FFFF. -/
def lead? (b : UInt8) : Option Lead :=
  if b < 0xC2 then none
  else if b < 0xE0 then some ⟨b.toNat - 0xC0, 1, 0x80, 0xBF⟩
  else if b = 0xE0 then some ⟨0x0, 2, 0xA0, 0xBF⟩
  else if b = 0xED then some ⟨0xD, 2, 0x80, 0x9F⟩
  else if b < 0xF0 then some ⟨b.toNat - 0xE0, 2, 0x80, 0xBF⟩
  else if b = 0xF0 then some ⟨0, 3, 0x90, 0xBF⟩
  else if b < 0xF4 then some ⟨b.toNat - 0xF0, 3, 0x80, 0xBF⟩
  else if b = 0xF4 then some ⟨4, 3, 0x80, 0x8F⟩
  else none

/-- Reads the bytes that follow a lead byte.  Stops before the first byte that cannot follow, with
no code point. -/
def complete (share : Nat) : Nat → UInt8 → UInt8 → List UInt8 → Option Char × List UInt8
  | 0, _, _, bytes => (some (Char.ofNat share), bytes)
  | _ + 1, _, _, [] => (none, [])
  | following + 1, least, greatest, b :: bytes =>
    if least ≤ b ∧ b ≤ greatest then
      complete (share * 0x40 + (b.toNat - 0x80)) following 0x80 0xBF bytes
    else (none, b :: bytes)

/-- The first piece of `bytes` and the bytes after it.  The piece is a code point, or `none` where
the bytes are not the form of one. -/
def decodeOne : List UInt8 → Option (Option Char × List UInt8)
  | [] => none
  | b :: bytes =>
    if b < 0x80 then some (some (Char.ofNat b.toNat), bytes)
    else match lead? b with
      | none => some (none, bytes)
      | some lead => some (complete lead.share lead.following lead.least lead.greatest bytes)

theorem complete_length_le (share following : Nat) (least greatest : UInt8) (bytes : List UInt8) :
  (complete share following least greatest bytes).2.length ≤ bytes.length
  := by
  fun_induction complete share following least greatest bytes with
  | case1 => simp
  | case2 => simp
  | case3 share following least greatest b bytes _ ih =>
    simp only [List.length_cons]
    omega
  | case4 => simp

/-- Every piece holds at least one byte. -/
theorem decodeOne_length_lt {bytes rest : List UInt8} {piece : Option Char}
    (h : decodeOne bytes = some (piece, rest)) :
  rest.length < bytes.length
  := by
  cases bytes with
  | nil => simp [decodeOne] at h
  | cons b bytes =>
    simp only [decodeOne] at h
    split at h
    · simp_all
    · split at h
      · simp_all
      · rename_i lead _
        have := complete_length_le lead.share lead.following lead.least lead.greatest bytes
        simp only [Option.some.injEq] at h
        simp only [h] at this
        simp only [List.length_cons]
        omega

/-- The code points of `bytes`, with U+FFFD for every piece that is none. -/
def decodeLossy (bytes : List UInt8) : List Char :=
  match _h : decodeOne bytes with
  | none => []
  | some (piece, rest) => piece.getD replacement :: decodeLossy rest
termination_by bytes.length
decreasing_by exact decodeOne_length_lt _h

end Formulary.Utf8
