import Formulary.Text.Extending
import Formulary.Text.Unseen

/-!
# Quoted text

The form in which diagnostics show a code point (`Quoted.char`, between single quotes) and a text
(`Quoted.text`, between double quotes).  A backslash, the enclosing quote, the NUL, the tab and the
line breaks have short escapes; a code point that is not seen, or not apart from the one before it,
is shown by its number in lower-case hexadecimal digits; all others stand for themselves.
-/

namespace Formulary.Quoted

/-- Whether `c` is shown by its number. -/
def isNumbered (c : Char) : Bool := Text.unseen.contains c || Text.extending.contains c

/-- The number of `c` in hexadecimal digits, without leading zeros. -/
def hex (c : Char) : String := String.ofList (Nat.toDigits 16 c.toNat)

/-- How `c` is shown between the quotes `quote`. -/
def escape (quote c : Char) : String :=
  if c = '\x00' then "\\0"
  else if c = '\t' then "\\t"
  else if c = '\r' then "\\r"
  else if c = '\n' then "\\n"
  else if c = '\\' ∨ c = quote then String.ofList ['\\', c]
  else if isNumbered c then "\\u\x7b" ++ hex c ++ "\x7d"
  else c.toString

/-- A code point between single quotes. -/
def char (c : Char) : String := "'" ++ escape '\'' c ++ "'"

/-- A text between double quotes. -/
def text (s : String) : String :=
  s.foldl (fun shown c => shown ++ escape '"' c) "\"" ++ "\""

end Formulary.Quoted
