import FormulaReader.Token

/-!
Precedences: how tightly each connective binds. Higher binds tighter.
-/

namespace FormulaReader

structure Precedence where
  and : Int32
  or : Int32
deriving DecidableEq

namespace Precedence

/-- Conjunction binds tighter than disjunction. -/
def standard : Precedence :=
  ⟨40, 20⟩

instance : Inhabited Precedence := ⟨standard⟩

def of (table : Precedence) : Connective → Int32
  | .and => table.and
  | .or => table.or

/-- The precedence of a token. Whatever is no connective counts as −1. -/
def ofToken (table : Precedence) : Token → Int32
  | .connective kind => table.of kind
  | _ => -1

end Precedence

end FormulaReader
