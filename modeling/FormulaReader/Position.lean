import FormulaReader.Text.Numeral

/-!
Positions in an input: a line and a column, both counted from one.
-/

namespace FormulaReader

structure Position where
  line : Nat
  column : Nat
deriving DecidableEq

namespace Position

/-- The position of the first character of an input. -/
def first : Position :=
  ⟨1, 1⟩

/-- The position of the character that follows a `c` at `p`. -/
def next (p : Position) (c : Char) : Position :=
  if c = '\n' then ⟨p.line + 1, 1⟩ else ⟨p.line, p.column + 1⟩

/-- The position of the character that follows `cs`, the first of which is at `p`. -/
def after (p : Position) (cs : List Char) : Position :=
  cs.foldl next p

/-- The position as it stands in messages. -/
def text (p : Position) : String :=
  "line " ++ Text.decimal p.line ++ ", column " ++ Text.decimal p.column

@[simp] theorem after_nil (p : Position) : p.after [] = p := rfl

@[simp] theorem after_cons (p : Position) (c : Char) (cs : List Char) :
    p.after (c :: cs) = (p.next c).after cs := rfl

@[simp] theorem after_append (p : Position) (cs ds : List Char) :
    p.after (cs ++ ds) = (p.after cs).after ds := by
  simp [after]

end Position

end FormulaReader
