import FormulaReader.Precedence

/-!
Chains: operands joined by connectives without parentheses, and the tree that the precedences of
the connectives make of them.
-/

namespace FormulaReader

/-- A connective and the operand to its right. -/
structure Link where
  connective : Connective
  operand : Expression
deriving DecidableEq

namespace Precedence

/-- The precedence of the connective that `links` begins with, and −1 where there is none. -/
def ofHead (table : Precedence) : List Link → Int32
  | [] => -1
  | link :: _ => table.of link.connective

end Precedence

namespace Chain

/-- Takes the links whose precedence is at least `least` into `left`, and leaves the rest from the
first other one on. Where a tighter connective follows an operand, that operand is first
completed with all that binds tighter. -/
def climb (table : Precedence) (least : Int32) (left : Expression) (links : List Link) :
    Expression × { rest : List Link // rest.length ≤ links.length } :=
  match links with
  | [] => (left, ⟨[], Nat.le_refl _⟩)
  | link :: later =>
      let precedence := table.of link.connective
      if precedence < least then (left, ⟨link :: later, Nat.le_refl _⟩)
      else if precedence < table.ofHead later then
        match climb table (precedence + 1) link.operand later with
        | (right, ⟨further, shorter⟩) =>
            match climb table least (.binary link.connective left right) further with
            | (whole, ⟨rest, shortest⟩) =>
                (whole, ⟨rest, Nat.le_succ_of_le (Nat.le_trans shortest shorter)⟩)
      else
        match climb table least (.binary link.connective left link.operand) later with
        | (whole, ⟨rest, shorter⟩) => (whole, ⟨rest, Nat.le_succ_of_le shorter⟩)
termination_by links.length
decreasing_by
  · exact Nat.lt_succ_self _
  · exact Nat.lt_succ_of_le shorter
  · exact Nat.lt_succ_self _

/-- The tree of `left` and the links after it. -/
def tree (table : Precedence) (least : Int32) (left : Expression) (links : List Link) :
    Expression :=
  (climb table least left links).1

end Chain

end FormulaReader
