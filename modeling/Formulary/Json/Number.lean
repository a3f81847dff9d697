import Formulary.Text.CharClass

/-!
# The range of JSON numbers

A number in a JSON document is refused if its magnitude exceeds what a binary floating-point number
of 64 bits holds.  The bound is checked on a significand of at most 64 bits and a power of ten:
digits beyond that precision only move the decimal point, or are dropped behind it.
-/

namespace Formulary.Json

/-- An exponent as it is written: whether it is negative, and its digits. -/
structure Exponent where
  negative : Bool
  digits : List Char

/-- A number as it is written: the digits before and after the decimal point, and the exponent. -/
structure Numeral where
  whole : List Char
  fraction : List Char
  exponent : Option Exponent

/-- A significand times a power of ten. -/
structure Scaled where
  significand : Nat
  power : Int

namespace Scaled

/-- The greatest significand. -/
def greatestSignificand : Nat := 0xFFFFFFFFFFFFFFFF

/-- The greatest power of ten that a floating-point number holds. -/
def greatestPower : Nat := 308

/-- The least magnitude that rounds beyond the greatest floating-point number. -/
def overflowBound : Nat := Nat.pow 2 1024 - Nat.pow 2 970

/-- Takes the digits before the point into the significand as long as they fit.  The others raise
the power. -/
def ofWhole : Nat → List Char → Scaled
  | significand, [] => ⟨significand, 0⟩
  | significand, d :: ds =>
    if 10 * significand + digitValue d ≤ greatestSignificand then
      ofWhole (10 * significand + digitValue d) ds
    else ⟨significand, ds.length + 1⟩

/-- Takes the digits after the point into the significand as long as they fit.  The others are
dropped. -/
def addFraction : Scaled → List Char → Scaled
  | n, [] => n
  | n, d :: ds =>
    if 10 * n.significand + digitValue d ≤ greatestSignificand then
      addFraction ⟨10 * n.significand + digitValue d, n.power - 1⟩ ds
    else n

/-- `n` rounded to 53 bits, a tie to the even neighbour. -/
def round53 (n : Nat) : Nat :=
  let unit := Nat.pow 2 (n.log2 - 52)
  let quotient := n / unit
  let remainder := n % unit
  if unit < 2 * remainder ∨ (unit = 2 * remainder ∧ quotient % 2 = 1) then (quotient + 1) * unit
  else quotient * unit

/-- Whether the number is in range. -/
def inRange (n : Scaled) : Bool :=
  if n.power < 0 ∨ n.significand = 0 then true
  else if greatestPower < n.power then false
  else round53 n.significand * round53 (Nat.pow 10 n.power.toNat) < overflowBound

end Scaled

/-- The greatest exponent that is reckoned with. -/
def Exponent.greatest : Nat := 0x7FFFFFFF

/-- Whether the number is in range.  An exponent too great to be reckoned with decides alone, unless
the significand is zero. -/
def Numeral.inRange (n : Numeral) : Bool :=
  let scaled := (Scaled.ofWhole 0 n.whole).addFraction n.fraction
  match n.exponent with
  | none => scaled.inRange
  | some e =>
    let size : Int := ofDigits e.digits
    if Exponent.greatest < size then e.negative || scaled.significand = 0
    else Scaled.inRange ⟨scaled.significand, scaled.power + if e.negative then -size else size⟩

end Formulary.Json
