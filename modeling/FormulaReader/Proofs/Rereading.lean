import FormulaReader.Proofs.Names
import FormulaReader.Proofs.Room

/-!
Reading, writing, and reading again: what was parsed once is parsed again from its written form,
as long as the written form is not nested too deep. Chains and quantifiers take less nesting in the
text that was read first than in the written form, which has parentheses for each of them.
-/

namespace FormulaReader

variable {table : Precedence}

theorem parseExpression_text {e : Expression}
    (formed : e.wellFormed = true)
    (positive : ∀ kind, 0 ≤ table.of kind) :
    e.depth ≤ 256 ∧ (parseExpression e.text table).result = .ok e ∨
      256 < e.depth ∧ Parser.MeetsLimit (parseExpression e.text table) := by
  have sameTokens : (Phrase.chain e.written []).tokens = Text.tokens e.text := by
    rw [Phrase.tokens_single, Expression.tokens_text formed]
  have maximal := Phrase.maximal_single (Expression.maximal_written e)
  have read := parseExpression_of_phrase sameTokens maximal fun kind _ => positive kind
  rw [Phrase.nesting_single, Expression.nesting_written, Phrase.tree_single,
    Expression.tree_written] at read
  exact read

theorem parseDefinition_text {f : Definition}
    (formed : f.wellFormed = true)
    (positive : ∀ kind, 0 ≤ table.of kind) :
    f.body.depth ≤ 256 ∧ (parseDefinition f.text table).result = .ok f ∨
      256 < f.body.depth ∧ Parser.MeetsLimit (parseDefinition f.text table) := by
  have sameTokens : Text.tokens f.text =
      .define :: (f.prototype.tokens ++ (Phrase.chain f.body.written []).tokens) := by
    rw [Definition.tokens_text formed, Phrase.tokens_single]
  have maximal := Phrase.maximal_single (Expression.maximal_written f.body)
  have read := parseDefinition_of_phrase sameTokens maximal fun kind _ => positive kind
  rw [Phrase.nesting_single, Expression.nesting_written, Phrase.tree_single,
    Expression.tree_written] at read
  exact read

/-- The written form of what was parsed is parsed to the same again if it is not nested too deep,
and meets the limit on nesting otherwise. -/
theorem reread_eq_ok_or_tooDeep (source : String) (table : Precedence)
    (andPositive : 0 ≤ table.and)
    (orPositive : 0 ≤ table.or) :
    (∀ e, (parseExpression source table).result = .ok e →
      e.depth ≤ 256 ∧ (parseExpression e.text table).result = .ok e ∨
        256 < e.depth ∧ ∃ position,
          (parseExpression e.text table).result = .error ⟨position, .tooDeep 256⟩) ∧
    (∀ f, (parseDefinition source table).result = .ok f →
      f.body.depth ≤ 256 ∧ (parseDefinition f.text table).result = .ok f ∨
        256 < f.body.depth ∧ ∃ position,
          (parseDefinition f.text table).result = .error ⟨position, .tooDeep 256⟩) := by
  have positive := Precedence.of_nonneg andPositive orPositive
  constructor
  · intro e parsed
    exact parseExpression_text (Expression.wellFormed_of_parsed parsed) positive
  · intro f parsed
    exact parseDefinition_text (Definition.wellFormed_of_parsed parsed) positive

theorem rereads_quantified_disjunction :
    let e : Expression :=
      .binary .or (.var "a") (.quantified .universal "x" (.binary .and (.var "x") (.var "b")))
    0 ≤ Precedence.standard.and ∧ 0 ≤ Precedence.standard.or ∧
      (parseExpression "a \\/ forall x, x /\\ b" .standard).result = .ok e ∧ e.depth ≤ 256 ∧
      (parseExpression e.text .standard).result = .ok e := by
  intro e
  have andPositive : 0 ≤ Precedence.standard.and := by decide
  have orPositive : 0 ≤ Precedence.standard.or := by decide
  have parsed : (parseExpression "a \\/ forall x, x /\\ b" .standard).result = .ok e := by
    decide +kernel
  have shallow : e.depth ≤ 256 := by decide
  refine ⟨andPositive, orPositive, parsed, shallow, ?_⟩
  rcases (reread_eq_ok_or_tooDeep "a \\/ forall x, x /\\ b" .standard andPositive
    orPositive).1 e parsed with ⟨_, again⟩ | ⟨deep, _⟩
  · exact again
  · exact absurd shallow (Nat.not_le.mpr deep)

/-! ## Many quantifiers -/

/-- A variable behind `count` quantifiers. -/
def Expression.quantifiedTimes : Nat → Expression
  | 0 => .var "x"
  | count + 1 => .quantified .universal "x" (quantifiedTimes count)

/-- The formula without any parentheses. -/
def Text.quantifiedTimes : Nat → String
  | 0 => "x"
  | count + 1 => "forall x, " ++ quantifiedTimes count

def Phrase.quantifiedTimes : Nat → Phrase
  | 0 => .chain (.var "x") []
  | count + 1 => .chain (.quantification .universal "x" (quantifiedTimes count)) []

theorem Text.tokens_quantifiedTimes (count : Nat) :
    tokens (Text.quantifiedTimes count) = (Phrase.quantifiedTimes count).tokens := by
  rw [tokens_eq]
  induction count with
  | zero => decide +kernel
  | succ count ih =>
      have shape : (Text.quantifiedTimes (count + 1)).toList =
          "forall".toList ++ ' ' :: ("x".toList ++
            ',' :: ' ' :: (Text.quantifiedTimes count).toList) := by
        simp [Text.quantifiedTimes]
      have keyword : ∀ rest, Apart rest → tokensOf ("forall".toList ++ rest) =
          .quantifier .universal :: tokensOf rest := by
        intro rest apart
        exact tokensOf_keyword .universal apart
      rw [shape, keyword _ (apart_cons (by decide)), tokensOf_space,
        tokensOf_name (by decide) (apart_cons (by decide)), tokensOf_punctuation _ (by decide),
        tokensOf_space, ih, Phrase.quantifiedTimes, Phrase.tokens_single, Primary.tokens]

theorem Phrase.maximal_quantifiedTimes (count : Nat) : (quantifiedTimes count).Maximal := by
  induction count with
  | zero => exact maximal_single trivial
  | succ count ih => exact maximal_single ih

theorem Phrase.nesting_quantifiedTimes (count : Nat) :
    (quantifiedTimes count).nesting = count + 1 := by
  induction count with
  | zero => rfl
  | succ count ih => rw [quantifiedTimes, nesting_single, Primary.nesting, ih]

theorem Phrase.tree_quantifiedTimes (table : Precedence) (count : Nat) :
    (quantifiedTimes count).tree table = .quantifiedTimes count := by
  induction count with
  | zero => rw [quantifiedTimes, tree_single, Primary.tree, Expression.quantifiedTimes]
  | succ count ih =>
      rw [quantifiedTimes, tree_single, Primary.tree, ih, Expression.quantifiedTimes]

theorem Expression.depth_quantifiedTimes (count : Nat) :
    (quantifiedTimes count).depth = 2 * count + 1 := by
  induction count with
  | zero => rfl
  | succ count ih =>
      rw [quantifiedTimes, depth, ih]
      omega

/-- As many as 255 quantifiers in a row are parsed. -/
theorem parseExpression_quantifiedTimes {count : Nat}
    (few : count ≤ 255)
    (positive : ∀ kind, 0 ≤ table.of kind) :
    (parseExpression (Text.quantifiedTimes count) table).result =
      .ok (.quantifiedTimes count) := by
  apply (parseExpression_ok_iff _ _ _).mpr
  refine ⟨.quantifiedTimes count, (Text.tokens_quantifiedTimes count).symm,
    Phrase.maximal_quantifiedTimes count, ?_, fun kind _ => positive kind,
    Phrase.tree_quantifiedTimes table count⟩
  rw [Phrase.nesting_quantifiedTimes]
  exact Nat.succ_le_succ few

/-- But in the written form, with parentheses for each of them, 128 are too many. -/
theorem not_reread_quantifiedTimes :
    let e := Expression.quantifiedTimes 128
    (parseExpression (Text.quantifiedTimes 128) .standard).result = .ok e ∧
      (parseExpression e.text .standard).result ≠ .ok e := by
  intro e
  have positive : ∀ kind, 0 ≤ Precedence.standard.of kind :=
    Precedence.of_nonneg (by decide) (by decide)
  have parsed := parseExpression_quantifiedTimes (by decide : 128 ≤ 255) positive
  refine ⟨parsed, ?_⟩
  intro again
  have deep : e.depth = 257 := Expression.depth_quantifiedTimes 128
  rcases parseExpression_text (Expression.wellFormed_of_parsed parsed) positive with
    ⟨shallow, _⟩ | ⟨_, position, failed⟩
  · rw [deep] at shallow
    exact absurd shallow (by decide)
  · rw [again] at failed
    cases failed

end FormulaReader
