import Formulary.Parser.Primitive
import Formulary.Text.CharClass

/-!
# Parsers of words

Words and runs of digits are as long as they can be.  A token is read after any spaces, so that the
parsers of a grammar need not mention them.
-/

namespace Formulary.Parser

variable {α : Type}

/-- Reads a word. -/
def identifier : Parser String := several isIdentifierStart isIdentifierChar

/-- Reads a run of digits. -/
def digits : Parser String := several isDigit isDigit

/-- Reads a run of spaces, which may be empty. -/
def spaces : Parser String := (several isSpace isSpace).optional.map fun s => s.getD ""

/-- Reads with `p` after any spaces. -/
def spaced (p : Parser α) : Parser α := (spaces.both p).snd

/-- Reads the text `s` after any spaces.  A word that only begins with `s` will do. -/
def token (s : String) : Parser String := spaced (string s)

/-- Reads the word `word` after any spaces.  A longer word will not do. -/
def keyword (word : String) : Parser String :=
  spaced (identifier.filterMap fun found => if found = word then some found else none)

end Formulary.Parser
