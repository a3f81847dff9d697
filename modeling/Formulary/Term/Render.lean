import Formulary.Term.Basic

/-!
# The written form of terms

`Term.render` writes a formula so that the formula grammar reads it back.  Every operation stands in
parentheses, an equation only where it is a side of another equation.  Within a text a double quote
is escaped by a backslash and everything else stands for itself, a backslash too.
-/

namespace Formulary

namespace Value

/-- The code points of a text with a backslash before every double quote. -/
def escapeQuotes : List Char → List Char
  | [] => []
  | c :: cs => if c = '"' then '\\' :: '"' :: escapeQuotes cs else c :: escapeQuotes cs

/-- The written form of a text, between double quotes. -/
def renderText (s : String) : String :=
  "\"" ++ String.ofList (escapeQuotes s.toList) ++ "\""

/-- The written form of a value. -/
def render : Value → String
  | .bool true => "TRUE"
  | .bool false => "FALSE"
  | .str s => renderText s

end Value

namespace Term

/-- Whether the formula is an equation. -/
def isEquation : Term → Bool
  | .equation _ _ => true
  | _ => false

/-- A side of an equation: an equation gets parentheses, since `a=b=c` is no formula. -/
def renderSide (side : Term) (rendered : String) : String :=
  if side.isEquation then "(" ++ rendered ++ ")" else rendered

/-- The written form of a formula. -/
def render : Term → String
  | .value v => v.render
  | .identifier name => name
  | .equation left right => renderSide left left.render ++ "=" ++ renderSide right right.render
  | .not arg => "(NOT " ++ arg.render ++ ")"
  | .and left right => "(" ++ left.render ++ " AND " ++ right.render ++ ")"
  | .or left right => "(" ++ left.render ++ " OR " ++ right.render ++ ")"

end Term

end Formulary
