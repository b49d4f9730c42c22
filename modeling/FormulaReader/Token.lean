import FormulaReader.Expression.Printer
import FormulaReader.Text.Quoted

/-!
Tokens: the words and signs that an input consists of.
-/

namespace FormulaReader

inductive Token where
  | endOfInput
  | define
  | quantifier (kind : Quantifier)
  | connective (kind : Connective)
  | identifier (name : String)
  | symbol (character : Char)
deriving DecidableEq

namespace Token

/-- The token a word stands for: a keyword if it is one, else an identifier. -/
def ofWord (word : String) : Token :=
  if word = "def" then .define
  else if word = "forall" then .quantifier .universal
  else if word = "exists" then .quantifier .existential
  else .identifier word

/-- The token as it stands in messages. -/
def text : Token → String
  | .endOfInput => "end of input"
  | .define => "'def'"
  | .quantifier kind => "'" ++ kind.keyword ++ "'"
  | .connective kind => "'" ++ kind.glyph ++ "'"
  | .identifier name => "identifier '" ++ name ++ "'"
  | .symbol character => Text.quoted character

/-- The token as it stands in a token listing. Identifiers consist of letters and digits, so
nothing in them needs an escape. -/
def listing : Token → String
  | .endOfInput => "Eof"
  | .define => "Def"
  | .quantifier .universal => "Quantifier(Universal)"
  | .quantifier .existential => "Quantifier(Existential)"
  | .connective .and => "Binop(And)"
  | .connective .or => "Binop(Or)"
  | .identifier name => "Identifier(\"" ++ name ++ "\")"
  | .symbol character => "Char(" ++ Text.quoted character ++ ")"

end Token

end FormulaReader
