import Formulary.Parser.Fix
import Formulary.Parser.Lexical
import Formulary.Parser.Repeat

/-!
# The grammar of formulas

    Or       := And ("OR" And)*
    And      := Not ("AND" Not)*
    Not      := "NOT"* Equation
    Equation := Atom ("=" Atom)?
    Atom     := Value | Ident | "(" Or ")"
    Value    := Bool | String
    Bool     := "TRUE" | "FALSE"
    String   := '"' ( '\"' | [^"] )* '"'
    Ident    := [A-Za-z_][A-Za-z0-9_]* except keywords

Spaces may stand before every token.  No rule begins with itself, and the alternatives of a choice
begin with different tokens, as committed choice requires.  Keywords are whole words, so `TRUEfoo`
is an identifier.  Operands are read in a loop and nested to the right afterwards; only a
parenthesis nests the grammar.  For each rule there is the rule over its parts, such as
`equationOf`, and the rule itself, such as `equation`, over the whole grammar.
-/

namespace Formulary.Formula

open Formulary.Parser

/-- The reserved words. -/
def keywords : List String := ["TRUE", "FALSE", "NOT", "AND", "OR"]

/-- Whether two words differ at most in the case of ASCII letters. -/
def sameButCase (a b : String) : Bool := a.toList.map Char.toLower = b.toList.map Char.toLower

/-- The keyword that a word resembles. -/
def nearKeyword? (word : String) : Option String := keywords.find? (sameButCase · word)

/-- A word that is no keyword. -/
def ident : Parser String :=
  spaced
    ((identifier.filterMap fun word => if word ∈ keywords then none else some word).reporting
      fun word => (nearKeyword? word).map (Event.nearKeyword word))

/-- A text between double quotes.  A backslash with a double quote after it stands for the double
quote; any other backslash for itself. -/
def text : Parser String :=
  let escapedQuote := ((codePoint '\\').both (codePoint '"')).snd
  let character := escapedQuote.orElse (codePointNot ['"'])
  let contents := character.foldl "" String.push
  (((codePoint '"').both contents).snd.both (codePoint '"')).fst

/-- The truth value that a keyword stands for. -/
def truth? (word : String) : Option Bool :=
  if word = "TRUE" then some true
  else if word = "FALSE" then some false
  else none

/-- A truth value. -/
def bool : Parser Bool := spaced (identifier.filterMap truth?)

/-- A truth value or a text. -/
def value : Parser Value := spaced ((bool.map .bool).orElse (text.map .str))

/-- A value, an identifier or a parenthesised formula. -/
def atomOf (formula : Parser Term) : Parser Term :=
  let parenthesised := (((token "(").both formula).both (token ")")).fst.snd
  ((value.map .value).orElse (ident.map .identifier)).orElse parenthesised

/-- An atom, or an equation of two. -/
def equationOf (atom : Parser Term) : Parser Term :=
  (atom.both ((token "=").both atom).snd.optional).map fun
    | (left, some right) => .equation left right
    | (term, none) => term

/-- An equation after any number of negations, of which two cancel out. -/
def negationOf (equation : Parser Term) : Parser Term :=
  (((keyword "NOT").foldl false fun negated _ => !negated).both equation).map fun
    | (true, term) => .not term
    | (false, term) => term

/-- Joins operands so that the last two are joined first. -/
def nestRight (join : Term → Term → Term) : Term → List Term → Term
  | term, [] => term
  | term, next :: rest => join term (nestRight join next rest)

/-- Operands with a keyword between them, nested to the right. -/
def chainOf (word : String) (join : Term → Term → Term) (operand : Parser Term) : Parser Term :=
  (operand.both ((keyword word).both operand).snd.many).map fun (first, rest) =>
    nestRight join first rest

/-- A chain of conjunctions. -/
def conjunctionOf (negation : Parser Term) : Parser Term := chainOf "AND" .and negation

/-- A chain of disjunctions. -/
def disjunctionOf (conjunction : Parser Term) : Parser Term := chainOf "OR" .or conjunction

/-- A formula. -/
def formula : Parser Term := fix fun formula =>
  disjunctionOf (conjunctionOf (negationOf (equationOf (atomOf formula))))

/-- An atom of the grammar. -/
def atom : Parser Term := atomOf formula

/-- An equation of the grammar. -/
def equation : Parser Term := equationOf atom

/-- A negation of the grammar. -/
def negation : Parser Term := negationOf equation

/-- A conjunction of the grammar. -/
def conjunction : Parser Term := conjunctionOf negation

/-- A disjunction of the grammar, which is any formula. -/
def disjunction : Parser Term := formula

end Formulary.Formula
