import FormulaReader.Proofs.Definitions
import FormulaReader.Proofs.Rules

/-!
Room for nesting: a parser that does not meet the limit on nesting would do the same with any more
room. So the limit is the only thing that room decides about.
-/

namespace FormulaReader

namespace Parser

variable {α β : Type}

/-- The parser failed because the limit on nesting was met. -/
def MeetsLimit (o : Outcome ParseError Cursor α) : Prop :=
  ∃ position, o.result = .error ⟨position, .tooDeep nestingLimit⟩

/-- From `c` on, `q` does what `p` does, unless `p` meets the limit. -/
def ExtendsAt (q p : Parser α) (c : Cursor) : Prop :=
  MeetsLimit (p.run c) ∨ q.run c = p.run c

/-! ## Building blocks -/

theorem extendsAt_refl (p : Parser α) (c : Cursor) : ExtendsAt p p c :=
  .inr rfl

theorem ExtendsAt.bind {p q : Parser α} {next further : α → Parser β} {c : Cursor}
    (first : ExtendsAt q p c)
    (second : ∀ a m, p.Reads c a m → ExtendsAt (further a) (next a) m) :
    ExtendsAt (q >>= further) (p >>= next) c := by
  have goesOn := second
  simp only [Reads] at goesOn
  simp only [ExtendsAt, run_bind, Activity.bind_apply]
  cases shape : p.run c with
  | mk result m events =>
      rw [shape] at goesOn
      rcases first with ⟨position, met⟩ | same
      · rw [shape] at met
        have failed : result = .error ⟨position, .tooDeep nestingLimit⟩ := met
        left
        rw [failed, Activity.andThen_error]
        exact ⟨position, rfl⟩
      · rw [same, shape]
        cases result with
        | error e => exact .inr rfl
        | ok a =>
            rw [Activity.andThen_ok, Activity.andThen_ok]
            rcases goesOn a m ⟨rfl, rfl⟩ with ⟨position, met⟩ | alike
            · exact .inl ⟨position, met⟩
            · exact .inr (congrArg (Outcome.after events) alike)

theorem extendsAt_congruence :
    Steps.Congruence Cursor.token Cursor.size fun α (p q : Parser α) c => ExtendsAt q p c where
  pure a c := extendsAt_refl (pure a) c
  bind := by
    intro _ _ p _ _ _ c first second
    apply first.bind
    intro a m read
    exact second a m (read.2 ▸ (p.path c).size_le)
  token_bind := by
    intro _ next further c rest
    apply (extendsAt_refl token c).bind
    intro t m looked
    obtain ⟨rfl, rfl⟩ := reads_token.mp looked
    exact rest
  advance c := extendsAt_refl advance c
  advance_bind := by
    intro _ next further c rest
    apply (extendsAt_refl advance c).bind
    intro _ m moved
    obtain rfl := reads_advance.mp moved
    exact rest c.advance c.size_advance_le_size Cursor.size_advance_lt_size
  name?_bind := by
    intro _ next further c named unnamed
    apply (extendsAt_refl name? c).bind
    intro found m taken
    rcases reads_name?.mp taken with ⟨x, isName, rfl, rfl⟩ | ⟨_, rfl, rfl⟩
    · exact named x _ (Cursor.size_advance_lt_size (by simp [isName]))
    · exact unnamed
  fail _ := extendsAt_refl _ _
  note x c := extendsAt_refl (note x) c

/-! ## The rules of the grammar -/

theorem extendsAt_chain (table : Precedence) {inner outer : Parser Expression}
    (inside : ∀ c, ExtendsAt outer inner c) (c : Cursor) :
    ExtendsAt (chain table outer) (chain table inner) c := by
  rw [← rules_chain, ← rules_chain]
  exact extendsAt_congruence.chain (extendsAt_refl _) fun m _ => inside m

theorem extendsAt_primaryWithin (table : Precedence) {room more : Nat} (enough : room ≤ more)
    (c : Cursor) :
    ExtendsAt (primaryWithin table more) (primaryWithin table room) c := by
  induction room generalizing more c with
  | zero => exact .inl ⟨c.position, rfl⟩
  | succ room ih =>
      obtain ⟨rest, rfl⟩ := Nat.exists_eq_add_of_le' enough
      have inside : ∀ m, ExtendsAt (chain table (primaryWithin table (rest + room)))
          (chain table (primaryWithin table room)) m :=
        extendsAt_chain table (ih (Nat.le_add_left room rest))
      have rule := extendsAt_congruence.operand (s := c) fun m _ => inside m
      rw [rules_operand, rules_operand] at rule
      exact rule

theorem extendsAt_definitionWithin (table : Precedence) {room more : Nat} (enough : room ≤ more)
    (c : Cursor) :
    ExtendsAt (definitionWithin table more) (definitionWithin table room) c :=
  extendsAt_congruence.definition (extendsAt_chain table (extendsAt_primaryWithin table enough))

theorem extendsAt_whole {p q : Parser α} (inside : ∀ c, ExtendsAt q p c) (c : Cursor) :
    ExtendsAt (whole q) (whole p) c := by
  rw [← rules_whole, ← rules_whole]
  exact extendsAt_congruence.whole inside

end Parser

/-! ## Whole texts -/

variable {source : String} {table : Precedence}

/-- A text that is an expression by the grammar is parsed, unless it is nested too deep. -/
theorem parseExpression_of_phrase {phrase : Phrase}
    (same : phrase.tokens = Text.tokens source)
    (maximal : phrase.Maximal)
    (binds : table.Binds phrase.tokens) :
    phrase.nesting ≤ 256 ∧ (parseExpression source table).result = .ok (phrase.tree table) ∨
      256 < phrase.nesting ∧ Parser.MeetsLimit (parseExpression source table) := by
  by_cases shallow : phrase.nesting ≤ 256
  · exact .inl ⟨shallow, (parseExpression_ok_iff source table _).mpr
      ⟨phrase, same, maximal, shallow, binds, rfl⟩⟩
  · -- With room for the phrase it would be read. The limit leaves less, and if it made no
    -- difference, the phrase would fit into it.
    have deep : Parser.nestingLimit ≤ phrase.nesting := Nat.le_of_lt (Nat.not_le.mp shallow)
    have read := (Parser.result_whole_chain_iff source table phrase.nesting _).mpr
      ⟨phrase, same, maximal, Nat.le_refl _, binds, rfl⟩
    have inside := Parser.extendsAt_chain table (Parser.extendsAt_primaryWithin table deep)
    rcases Parser.extendsAt_whole inside (Cursor.ofFeed (source.toList.map some)) with
      met | alike
    · exact .inr ⟨Nat.not_le.mp shallow, met⟩
    · rw [alike] at read
      obtain ⟨other, otherSame, otherMaximal, otherShallow, _⟩ :=
        (parseExpression_ok_iff source table _).mp read
      rw [Phrase.eq_of_tokens_eq otherMaximal maximal (otherSame.trans same.symm)] at otherShallow
      exact absurd otherShallow shallow

/-- The same for a definition, the first token of which is not looked at. -/
theorem parseDefinition_of_phrase {first : Token} {head : Prototype} {phrase : Phrase}
    (same : Text.tokens source = first :: (head.tokens ++ phrase.tokens))
    (maximal : phrase.Maximal)
    (binds : table.Binds phrase.tokens) :
    phrase.nesting ≤ 256 ∧
        (parseDefinition source table).result = .ok ⟨head, phrase.tree table⟩ ∨
      256 < phrase.nesting ∧ Parser.MeetsLimit (parseDefinition source table) := by
  by_cases shallow : phrase.nesting ≤ 256
  · exact .inl ⟨shallow, (parseDefinition_ok_iff source table ⟨head, phrase.tree table⟩).mpr
      ⟨first, phrase, same, maximal, shallow, binds, rfl⟩⟩
  · have deep : Parser.nestingLimit ≤ phrase.nesting := Nat.le_of_lt (Nat.not_le.mp shallow)
    have read := (Parser.result_whole_definition_iff source table phrase.nesting
      ⟨head, phrase.tree table⟩).mpr ⟨first, phrase, same, maximal, Nat.le_refl _, binds, rfl⟩
    have inside := Parser.extendsAt_definitionWithin table deep
    rcases Parser.extendsAt_whole inside (Cursor.ofFeed (source.toList.map some)) with
      met | alike
    · exact .inr ⟨Nat.not_le.mp shallow, met⟩
    · rw [alike] at read
      obtain ⟨otherFirst, other, otherSame, otherMaximal, otherShallow, _⟩ :=
        (parseDefinition_ok_iff source table ⟨head, phrase.tree table⟩).mp read
      have sameTokens := List.append_cancel_left (List.cons.inj (otherSame.symm.trans same)).2
      rw [Phrase.eq_of_tokens_eq otherMaximal maximal sameTokens] at otherShallow
      exact absurd otherShallow shallow

end FormulaReader
