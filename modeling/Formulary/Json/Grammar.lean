import Formulary.Json.Basic
import Formulary.Json.Number
import Formulary.Parser.Lexical
import Formulary.Parser.Repeat
import Formulary.Table

/-!
# The grammar of JSON

A reader of JSON for the program, which takes the reader as a parameter.  The grammar is that of
RFC 8259, without extensions.  A document is one value with nothing but white space around it.
Arrays and objects nest at most 127 deep, numbers are in range, and an escaped surrogate belongs to
a pair.  Of an object the last member of each name is kept, and the names are put in order.
-/

namespace Formulary.Json

open Formulary.Parser

/-- The deepest nesting of arrays and objects. -/
def deepest : Nat := 127

/-- A code point for which `f` has a value. -/
def pick {α : Type} (f : Char → Option α) : Parser α := (codePointNot []).filterMap f

/-- The code point that a letter after a backslash stands for. -/
def shortEscape? (c : Char) : Option Char :=
  if c = '"' ∨ c = '\\' ∨ c = '/' then some c
  else if c = 'b' then some '\x08'
  else if c = 'f' then some '\x0C'
  else if c = 'n' then some '\n'
  else if c = 'r' then some '\r'
  else if c = 't' then some '\t'
  else none

/-- A number of four hexadecimal digits. -/
def fourHexDigits : Parser Nat :=
  let two := ((pick hexDigit?).both (pick hexDigit?)).map fun (a, b) => 0x10 * a + b
  (two.both two).map fun (a, b) => 0x100 * a + b

/-- The code point of a pair of surrogates. -/
def ofSurrogates? (high low : Nat) : Option Char :=
  if 0xDC00 ≤ low ∧ low ≤ 0xDFFF then
    some (Char.ofNat (0x10000 + 0x400 * (high - 0xD800) + (low - 0xDC00)))
  else none

/-- A code point written by number, in one part or as a pair of surrogates. -/
def numericEscape : Parser Char :=
  ((codePoint 'u').both fourHexDigits).snd.bind fun unit =>
    if 0xD800 ≤ unit ∧ unit ≤ 0xDBFF then
      ((Parser.string "\\u").both fourHexDigits).snd.filterMap (ofSurrogates? unit)
    else if 0xDC00 ≤ unit ∧ unit ≤ 0xDFFF then fail
    else succeed (Char.ofNat unit)

/-- An escaped code point. -/
def escape : Parser Char :=
  ((codePoint '\\').both ((pick shortEscape?).orElse numericEscape)).snd

/-- Whether `c` stands for itself in a string. -/
def isPlain (c : Char) : Bool := ' ' ≤ c && c != '"' && c != '\\'

/-- A string. -/
def text : Parser String :=
  let part := (several isPlain isPlain).orElse (escape.map Char.toString)
  let contents := part.foldl "" String.append
  (((codePoint '"').both contents).snd.both (codePoint '"')).fst

/-- The digits before the decimal point: a zero alone, or digits that do not begin with zero. -/
def wholeDigits : Parser String :=
  (Parser.string "0").orElse (several (fun c => isDigit c && c != '0') isDigit)

/-- The digits after the decimal point. -/
def fractionDigits : Parser String := ((codePoint '.').both digits).snd

/-- An exponent. -/
def exponent : Parser Exponent :=
  let sign := ((codePoint '+').map fun _ => false).orElse ((codePoint '-').map fun _ => true)
  let mark := (codePoint 'e').orElse (codePoint 'E')
  ((mark.both sign.optional).both digits).map fun ((_, negative), digits) =>
    ⟨negative.getD false, digits.toList⟩

/-- A number in range.  Its sign does not matter for that. -/
def numeral : Parser Numeral :=
  let unsigned :=
    (wholeDigits.both (fractionDigits.optional.both exponent.optional)).map
      fun (whole, fraction, exponent) =>
        (⟨whole.toList, (fraction.getD "").toList, exponent⟩ : Numeral)
  (((codePoint '-').optional.both unsigned).snd).filterMap fun n =>
    if n.inRange then some n else none

/-- A value without parts. -/
def scalar : Parser Json :=
  ((Parser.string "null").map fun _ => .null).orElse <|
  ((Parser.string "true").map fun _ => .boolean true).orElse <|
  ((Parser.string "false").map fun _ => .boolean false).orElse <|
  (text.map .string).orElse (numeral.map fun _ => .number)

/-- Items between brackets, with commas between them. -/
def enclosed {α : Type} (opening closing : String) (item : Parser α) : Parser (List α) :=
  let item := spaced item
  let items := (item.both ((token ",").both item).snd.many).map fun (first, rest) => first :: rest
  (((token opening).both items.optional).snd.both (token closing)).fst.map fun items =>
    items.getD []

/-- A member of an object. -/
def member (value : Parser Json) : Parser (String × Json) :=
  (text.both ((token ":").both (spaced value)).snd)

/-- A value that nests at most so deep. -/
def value : Nat → Parser Json
  | 0 => scalar
  | depth + 1 =>
    let inner := value depth
    scalar.orElse <|
      ((enclosed "[" "]" inner).map .array).orElse
        ((enclosed "\x7b" "\x7d" (member inner)).map fun members =>
          .object (Table.ofList members).entries)

/-- The value of a document.  Of a document that is no JSON it is not said what is wrong with it. -/
def parse (document : String) : Except String Json :=
  let (start, tape) := Tape.ofText document
  match ((spaced (value deepest)).both spaces).fst.run start tape with
  | (.success json remaining, _) => if remaining.isExhausted then .ok json else .error ""
  | (.failure _, _) => .error ""

end Formulary.Json
