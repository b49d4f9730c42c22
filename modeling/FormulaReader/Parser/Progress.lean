import FormulaReader.Parser.Grammar

/-!
Progress: an expression or a definition that was parsed has used up at least one token.
-/

namespace FormulaReader.Parser

variable {α β : Type}

/-- Whenever `p` succeeds it has read on. -/
def Consumes (p : Parser α) : Prop :=
  ∀ (c : Cursor) (a : α), (p.run c).result = .ok a → (p.run c).state.size ≤ c.ahead.length

theorem consumes_fail (fault : Fault) : Consumes (fail fault : Parser α) := by
  intro c a succeeded
  simp [fail] at succeeded

theorem consumes_advance : Consumes advance := by
  intro c a _
  exact c.size_advance_le

theorem Consumes.bind_left {p : Parser α} (first : Consumes p) (next : α → Parser β) :
    Consumes (p >>= next) := by
  intro c b succeeded
  have step := first c
  have goesOn := fun a => ((next a).path (p.run c).state).size_le
  simp only [run_bind, Activity.bind_apply] at succeeded ⊢
  cases shape : p.run c with
  | mk result state events =>
      rw [shape] at succeeded step goesOn
      cases result with
      | error e => simp at succeeded
      | ok a => exact Nat.le_trans (goesOn a) (step a rfl)

theorem consumes_bind_right (p : Parser α) {next : α → Parser β}
    (further : ∀ a, Consumes (next a)) :
    Consumes (p >>= next) := by
  intro c b succeeded
  have shorter := (p.path c).length_ahead_le
  simp only [run_bind, Activity.bind_apply] at succeeded ⊢
  cases shape : p.run c with
  | mk result state events =>
      rw [shape] at succeeded shorter
      cases result with
      | error e => simp at succeeded
      | ok a => exact Nat.le_trans (further a state b succeeded) shorter

theorem consumes_group (inner : Parser Expression) : Consumes (group inner) :=
  consumes_advance.bind_left _

theorem consumes_application (inner : Parser Expression) : Consumes (application inner) := by
  refine consumes_bind_right token fun found => ?_
  cases found with
  | identifier name => exact consumes_advance.bind_left _
  | _ => exact consumes_fail _

theorem consumes_quantification (inner : Parser Expression) :
    Consumes (quantification inner) := by
  refine consumes_bind_right token fun found => ?_
  cases found with
  | quantifier kind => exact consumes_advance.bind_left _
  | _ => exact consumes_fail _

theorem consumes_operand (inner : Parser Expression) : Consumes (operand inner) := by
  refine consumes_bind_right token fun found => ?_
  split
  · exact consumes_quantification inner
  · exact consumes_application inner
  · exact consumes_group inner
  · exact consumes_fail _

theorem consumes_primaryWithin (table : Precedence) (room : Nat) :
    Consumes (primaryWithin table room) := by
  cases room with
  | zero => exact consumes_fail _
  | succ room => exact consumes_operand _

theorem consumes_expression (table : Precedence) : Consumes (expression table) :=
  (consumes_primaryWithin table nestingLimit).bind_left _

theorem consumes_definition (table : Precedence) : Consumes (definition table) :=
  consumes_advance.bind_left _

end FormulaReader.Parser
