import Formulary.Arithmetic.Basic
import Formulary.Parser.Fix
import Formulary.Parser.Lexical
import Formulary.Parser.Repeat

/-!
# The grammar of expressions

    Number       := [0-9]+
    Multiplicand := Number | "(" Expression ")"
    Addend       := Multiplicand (("*" | "/") Multiplicand)*
    Expression   := Addend (("+" | "-") Addend)*

Spaces may stand before every token.  Operations associate to the left and are carried out as they
are read.  A fault does not stop the reading; it is carried on to the end.
-/

namespace Formulary.Arithmetic

open Formulary.Parser

/-- The number that a run of digits stands for, unless it is too great. -/
def number? (digits : String) : Option Int :=
  let n : Int := ofDigits digits.toList
  if n ≤ greatest then some n else none

/-- A number.  Digits that stand for too great a number are none. -/
def number : Parser Int := spaced (digits.filterMap number?)

/-- A number or a parenthesised expression. -/
def multiplicandOf (expression : Parser Outcome) : Parser Outcome :=
  let parenthesised := (((token "(").both expression).both (token ")")).fst.snd
  (number.map .ok).orElse parenthesised

/-- A choice of two operators. -/
def operator (s : String) (op : Operator) (s' : String) (op' : Operator) : Parser Operator :=
  ((token s).map fun _ => op).orElse ((token s').map fun _ => op')

/-- Operands with operators between them, combined from the left. -/
def chainOf (operator : Parser Operator) (operand : Parser Outcome) : Parser Outcome :=
  operand.bind fun first =>
    (operator.both operand).foldl first fun left (op, right) => op.combine left right

/-- A chain of multiplications and divisions. -/
def addendOf (multiplicand : Parser Outcome) : Parser Outcome :=
  chainOf (operator "*" .times "/" .over) multiplicand

/-- A chain of additions and subtractions. -/
def expressionOf (addend : Parser Outcome) : Parser Outcome :=
  chainOf (operator "+" .plus "-" .minus) addend

/-- An expression. -/
def expression : Parser Outcome := fix fun expression =>
  expressionOf (addendOf (multiplicandOf expression))

/-- A multiplicand of the grammar. -/
def multiplicand : Parser Outcome := multiplicandOf expression

/-- An addend of the grammar. -/
def addend : Parser Outcome := addendOf multiplicand

end Formulary.Arithmetic
