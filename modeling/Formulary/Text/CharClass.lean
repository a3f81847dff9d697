/-!
# Classes of code points

Letters and digits are those of ASCII.  A word begins with a letter or an underscore and goes on
with letters, underscores and digits; the spaces between tokens are the blank, the tab and the two
line breaks.
-/

namespace Formulary

/-- Whether a word may begin with `c`. -/
def isIdentifierStart (c : Char) : Bool := c.isAlpha || c = '_'

/-- Whether `c` is a decimal digit. -/
def isDigit (c : Char) : Bool := c.isDigit

/-- Whether a word may go on with `c`. -/
def isIdentifierChar (c : Char) : Bool := isIdentifierStart c || isDigit c

/-- Whether `c` may stand between tokens. -/
def isSpace (c : Char) : Bool := c = ' ' || c = '\t' || c = '\r' || c = '\n'

/-! ### The members of the classes -/

variable {c : Char}

theorem isDigit_iff :
  isDigit c ↔ '0' ≤ c ∧ c ≤ '9'
  := by simp [isDigit, Char.isDigit, Char.le_def]

theorem isIdentifierStart_iff :
  isIdentifierStart c ↔ ('A' ≤ c ∧ c ≤ 'Z') ∨ ('a' ≤ c ∧ c ≤ 'z') ∨ c = '_'
  := by
  have hupper : c.isUpper ↔ 'A' ≤ c ∧ c ≤ 'Z' := decide_eq_true_iff
  have hlower : c.isLower ↔ 'a' ≤ c ∧ c ≤ 'z' :=
    Bool.and_eq_true_iff.trans (and_congr decide_eq_true_iff decide_eq_true_iff)
  have halpha : c.isAlpha ↔ c.isUpper ∨ c.isLower := Bool.or_eq_true_iff
  rw [isIdentifierStart, Bool.or_eq_true, halpha, hupper, hlower, decide_eq_true_iff, or_assoc]

theorem isIdentifierChar_iff :
  isIdentifierChar c
    ↔ ('A' ≤ c ∧ c ≤ 'Z') ∨ ('a' ≤ c ∧ c ≤ 'z') ∨ c = '_' ∨ ('0' ≤ c ∧ c ≤ '9')
  := by
  rw [isIdentifierChar, Bool.or_eq_true, isIdentifierStart_iff, isDigit_iff, or_assoc, or_assoc]

theorem isSpace_iff :
  isSpace c ↔ c = ' ' ∨ c = '\t' ∨ c = '\r' ∨ c = '\n'
  := by simp [isSpace, or_assoc]

/-! ### Digits -/

/-- The value of a decimal digit. -/
def digitValue (d : Char) : Nat := d.toNat - '0'.toNat

/-- The number that decimal digits stand for. -/
def ofDigits (digits : List Char) : Nat := digits.foldl (fun n d => 10 * n + digitValue d) 0

/-- The value of a hexadecimal digit. -/
def hexDigit? (c : Char) : Option Nat :=
  if isDigit c then some (digitValue c)
  else if 'a' ≤ c ∧ c ≤ 'f' then some (c.toNat - 'a'.toNat + 10)
  else if 'A' ≤ c ∧ c ≤ 'F' then some (c.toNat - 'A'.toNat + 10)
  else none

end Formulary
