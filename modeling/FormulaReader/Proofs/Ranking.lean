import FormulaReader.Proofs.Climbing
import FormulaReader.Proofs.Turns

/-!
Ranking: of the precedences only the order counts. Two tables that agree on which connectives have a
negative precedence, and on the order of the others, group every chain alike. So whatever is parsed
with the one table is parsed with the other, through the same events, and sessions are the same.
-/

namespace FormulaReader

/-- The tables agree on which precedences are negative, and on the order of those that are not. -/
structure Precedence.SameOrder (table other : Precedence) : Prop where
  nonneg : ∀ kind, 0 ≤ table.of kind ↔ 0 ≤ other.of kind
  lt : ∀ kind next, 0 ≤ table.of kind → 0 ≤ table.of next →
    (table.of kind < table.of next ↔ other.of kind < other.of next)

variable {table other : Precedence}

theorem Precedence.SameOrder.le (same : table.SameOrder other) {kind next : Connective}
    (first : 0 ≤ table.of kind)
    (second : 0 ≤ table.of next) :
    table.of kind ≤ table.of next ↔ other.of kind ≤ other.of next := by
  rw [← Int32.not_lt, ← Int32.not_lt, same.lt next kind second first]

/-! ## Chains -/

namespace Chain

variable {links before after : List Link} {root : Link}

/-- The root of a chain is the same link for both tables. -/
theorem splits_of_sameOrder
    (same : table.SameOrder other)
    (nonneg : ∀ link ∈ links, 0 ≤ table.of link.connective)
    (splits : Splits table links before root after) :
    Splits other links before root after := by
  have whole := splits.whole
  have atRoot : 0 ≤ table.of root.connective := nonneg root (by simp [whole])
  refine ⟨whole, ?_, ?_⟩
  · intro link member
    have atLink : 0 ≤ table.of link.connective := nonneg link (by simp [whole, member])
    exact (same.le atRoot atLink).mp (splits.left link member)
  · intro link member
    have atLink : 0 ≤ table.of link.connective := nonneg link (by simp [whole, member])
    exact (same.lt _ _ atRoot atLink).mp (splits.right link member)

theorem grouped_of_sameOrder
    (same : table.SameOrder other)
    (nonneg : ∀ link ∈ links, 0 ≤ table.of link.connective)
    (left : Expression) :
    grouped table left links = grouped other left links := by
  induction size : links.length using Nat.strongRecOn generalizing links left with
  | ind n ih =>
      subst size
      cases found : loosest? table links with
      | none =>
          rw [loosest?_eq_none_iff.mp found, grouped_nil, grouped_nil]
      | some parts =>
          rcases parts with ⟨before, root, after⟩
          have splits := splits_of_loosest? found
          have whole := splits.whole
          have length : links.length = before.length + (after.length + 1) := by simp [whole]
          have front := ih before.length (by omega)
            (fun link member => nonneg link (by simp [whole, member])) left rfl
          have back := ih after.length (by omega)
            (fun link member => nonneg link (by simp [whole, member])) root.operand rfl
          rw [grouped_of_splits left splits,
            grouped_of_splits left (splits_of_sameOrder same nonneg splits), front, back]

end Chain

/-! ## Parsers -/

namespace Parser

variable {operand : Parser Expression}

theorem connectiveFrom_of_sameOrder (same : table.SameOrder other) :
    connectiveFrom table 0 = connectiveFrom other 0 := by
  funext t
  cases t with
  | connective kind =>
      have negative : table.of kind < 0 ↔ other.of kind < 0 := by
        rw [← Int32.not_le, ← Int32.not_le, same.nonneg kind]
      simp only [connectiveFrom, negative]
  | _ => rfl

theorem continuation_of_sameOrder (same : table.SameOrder other) (left : Expression) :
    continuation table operand 0 left = continuation other operand 0 left := by
  have alike : links table 0 operand = links other 0 operand := by
    rw [links, links, connectiveFrom_of_sameOrder same]
  apply eq_of_run
  funext c
  rw [continuation_eq, continuation_eq, map_eq_pure_bind, map_eq_pure_bind]
  apply run_bind_congr (congrFun (congrArg Parser.run alike) c)
  intro values d read
  have bind := (reads_links_iff_linked.mp read).bind
  rw [alike] at read
  rw [Chain.tree_eq_grouped left bind, Chain.grouped_of_sameOrder same bind,
    Chain.tree_eq_grouped left (reads_links_iff_linked.mp read).bind]

theorem chain_of_sameOrder (same : table.SameOrder other) :
    chain table operand = chain other operand := by
  rw [chain, chain]
  exact bind_congr fun left => continuation_of_sameOrder same left

theorem primaryWithin_of_sameOrder (same : table.SameOrder other) (room : Nat) :
    primaryWithin table room = primaryWithin other room := by
  induction room with
  | zero => rfl
  | succ room ih => rw [primaryWithin, primaryWithin, ih, chain_of_sameOrder same]

theorem expression_of_sameOrder (same : table.SameOrder other) :
    expression table = expression other := by
  rw [expression, expression, primary, primary, primaryWithin_of_sameOrder same,
    chain_of_sameOrder same]

theorem definition_of_sameOrder (same : table.SameOrder other) :
    definition table = definition other := by
  rw [definition, definition, expression_of_sameOrder same]

end Parser

/-! ## Sessions -/

theorem Turn.read_of_sameOrder (same : table.SameOrder other) (expressions : Bool) (c : Cursor) :
    Turn.read table expressions c = Turn.read other expressions c := by
  rw [read, read, Parser.definition_of_sameOrder same, Parser.expression_of_sameOrder same]

theorem Session.turns_of_sameOrder (same : table.SameOrder other) (options : SessionOptions)
    (c : Cursor) :
    Session.turns table options c = Session.turns other options c := by
  induction size : c.size using Nat.strongRecOn generalizing c with
  | ind n ih =>
      rw [turns, turns]
      by_cases atEnd : c.token = .endOfInput
      · rw [if_pos atEnd, if_pos atEnd]
      · have reads := Turn.read_of_sameOrder same options.expressions c
        have shorter := Turn.size_closed_lt table options.expressions atEnd
        rw [reads] at shorter
        have later := ih _ (size ▸ shorter) _ rfl
        simp only [if_neg atEnd, reads, later]

/-- If two tables agree on which precedences are negative, and on the order of the others, then every
text parses alike with both, as an expression and as a definition, with the same tree or the same
error and the same events, and sessions on the same input do the same on every sink. -/
theorem read_alike_of_sameOrder (same : table.SameOrder other) :
    (∀ source, parseExpression source table = parseExpression source other ∧
      parseDefinition source table = parseDefinition source other) ∧
    ∀ options c, Session.run table options c = Session.run other options c := by
  refine ⟨fun source => ⟨?_, ?_⟩, fun options c => ?_⟩
  · rw [parseExpression, parseExpression, Parser.expression_of_sameOrder same]
  · rw [parseDefinition, parseDefinition, Parser.definition_of_sameOrder same]
  · rw [Session.run, Session.run]
    simp only [Session.turns_of_sameOrder same]

theorem standard_sameOrder_extreme : Precedence.standard.SameOrder ⟨Int32.maxValue, 0⟩ where
  nonneg kind := by cases kind <;> decide
  lt kind next _ _ := by cases kind <;> cases next <;> decide

/-- Conjunction binds as tightly over disjunction with the highest precedence that there is as with
the standard one. -/
theorem parseExpression_standard_eq_extreme :
    Precedence.standard.SameOrder ⟨Int32.maxValue, 0⟩ ∧
      parseExpression "a \\/ b /\\ c" .standard =
        parseExpression "a \\/ b /\\ c" ⟨Int32.maxValue, 0⟩ :=
  ⟨standard_sameOrder_extreme,
    ((read_alike_of_sameOrder standard_sameOrder_extreme).1 "a \\/ b /\\ c").1⟩

end FormulaReader
