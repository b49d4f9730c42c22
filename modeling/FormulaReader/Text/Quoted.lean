import FormulaReader.Text.Numeral
import FormulaReader.Text.Visible

/-!
Quoted characters: how a single character of the input is shown in a message.
-/

namespace FormulaReader.Text

/-- What stands between the quotes for `c`: a short escape, `c` itself, or its code point. -/
def quotedBody (c : Char) : String :=
  if c = '\x00' then "\\0"
  else if c = '\t' then "\\t"
  else if c = '\n' then "\\n"
  else if c = '\r' then "\\r"
  else if c = '\'' then "\\'"
  else if c = '\\' then "\\\\"
  else if visible c then c.toString
  else "\\u\x7b" ++ hexadecimal c.toNat ++ "\x7d"

/-- The character `c` between single quotes. -/
def quoted (c : Char) : String :=
  "'" ++ quotedBody c ++ "'"

end FormulaReader.Text
