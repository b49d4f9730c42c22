import FormulaReader.Proofs.Printing

/-!
Unique readability: a written form shows all of the formula or the definition that it stands for,
however deep or long. The limit on nesting keeps some written forms from being parsed, but none from
being told apart.
-/

namespace FormulaReader

/-- Already the tokens of its written form determine a formula, whatever its names are. -/
theorem Expression.eq_of_tokens_written_eq {e f : Expression}
    (same : e.written.tokens = f.written.tokens) :
    e = f := by
  have maximal := Phrase.maximal_single (maximal_written e)
  have sameTokens := (Phrase.tokens_single e.written).trans same
  have phrases : Phrase.chain e.written [] = .chain f.written [] :=
    eq_chain_written maximal sameTokens
  have trees := congrArg (Phrase.tree .standard) phrases
  rw [Phrase.tree_single, Phrase.tree_single, tree_written, tree_written] at trees
  exact trees

/-- And they determine a definition, since no token of its body can be taken for one of the
prototype. -/
theorem Definition.eq_of_tokens_written_eq {d f : Definition}
    (same : d.prototype.tokens ++ d.body.written.tokens =
      f.prototype.tokens ++ f.body.written.tokens) :
    d = f := by
  obtain ⟨head, body⟩ := d
  obtain ⟨otherHead, otherBody⟩ := f
  obtain ⟨sameHead, sameBody⟩ := Prototype.eq_of_tokens_append same
  have bodies : body = otherBody := Expression.eq_of_tokens_written_eq sameBody
  have heads : head = otherHead := sameHead
  rw [heads, bodies]

/-- Two formulas, or two definitions, whose names are read as such are written alike only if they are
the same. -/
theorem text_eq_iff :
    (∀ e f : Expression, e.wellFormed = true → f.wellFormed = true →
      (e.text = f.text ↔ e = f)) ∧
    ∀ d f : Definition, d.wellFormed = true → f.wellFormed = true →
      (d.text = f.text ↔ d = f) := by
  constructor
  · intro e f formed otherFormed
    constructor
    · intro same
      have tokens := congrArg Text.tokens same
      rw [Expression.tokens_text formed, Expression.tokens_text otherFormed] at tokens
      exact Expression.eq_of_tokens_written_eq tokens
    · exact congrArg Expression.text
  · intro d f formed otherFormed
    constructor
    · intro same
      have tokens := congrArg Text.tokens same
      rw [Definition.tokens_text formed, Definition.tokens_text otherFormed] at tokens
      exact Definition.eq_of_tokens_written_eq (List.cons.inj tokens).2
    · exact congrArg Definition.text

theorem tells_apart_scopes_and_parameters :
    let wide : Expression := .quantified .universal "x" (.binary .or (.var "x") (.var "y"))
    let narrow : Expression := .binary .or (.quantified .universal "x" (.var "x")) (.var "y")
    let one : Definition := ⟨⟨"f", ["xy"]⟩, .call "x" [.var "y"]⟩
    let two : Definition := ⟨⟨"f", ["x", "y"]⟩, .call "x" [.var "y"]⟩
    wide.wellFormed = true ∧ narrow.wellFormed = true ∧ wide.text ≠ narrow.text ∧
      one.wellFormed = true ∧ two.wellFormed = true ∧ one.text ≠ two.text := by
  intro wide narrow one two
  have wideFormed : wide.wellFormed = true := by decide
  have narrowFormed : narrow.wellFormed = true := by decide
  have oneFormed : one.wellFormed = true := by decide
  have twoFormed : two.wellFormed = true := by decide
  have scopes := (text_eq_iff.1 wide narrow wideFormed narrowFormed).not.mpr (by decide)
  have parameters := (text_eq_iff.2 one two oneFormed twoFormed).not.mpr (by decide)
  exact ⟨wideFormed, narrowFormed, scopes, oneFormed, twoFormed, parameters⟩

/-- A word with parentheses in it is no name. It would be written as a call is. -/
example : (Expression.var "f()").text = (Expression.call "f" []).text := by
  decide +kernel

end FormulaReader
