import FormulaReader.Position
import FormulaReader.Token

/-!
Lexemes: tokens as they occur in an input.
-/

namespace FormulaReader

/-- A token, the position of its first character, and the answers pulled from the source of
characters in order to read it. -/
structure Lexeme where
  token : Token
  start : Position
  pulled : List (Option Char)
deriving DecidableEq

namespace Lexeme

/-- The end of the input, met again after `lexeme`: at the same place, and nothing is pulled. -/
def endAfter (lexeme : Lexeme) : Lexeme :=
  ⟨.endOfInput, lexeme.start, []⟩

/-- The position and the token, as they stand in a log. -/
def text (lexeme : Lexeme) : String :=
  lexeme.start.text ++ ": " ++ lexeme.token.text

end Lexeme

end FormulaReader
