/-!
Numerals: natural numbers written in base ten and in base sixteen.
-/

namespace FormulaReader.Text

/-- The shortest decimal numeral of `n`. -/
def decimal (n : Nat) : String :=
  String.ofList (Nat.toDigits 10 n)

/-- The shortest hexadecimal numeral of `n`, with lower-case digits. -/
def hexadecimal (n : Nat) : String :=
  String.ofList (Nat.toDigits 16 n)

end FormulaReader.Text
