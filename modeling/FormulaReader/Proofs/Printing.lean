import FormulaReader.Proofs.Definitions
import FormulaReader.Proofs.Words

/-!
Printing and parsing: which formulas and definitions their written forms are parsed back to. The
written form is the text of a phrase that has one group for every connective and every quantifier;
the limit on nesting and the signs of the precedences are all that can keep it from being read.
-/

namespace FormulaReader

/-! ## Formulas and the phrases they are written as -/

namespace Expression

mutual

/-- Every name in the formula is a name that the scanner reads as one. -/
def wellFormed : Expression → Bool
  | .var name => Text.isName name
  | .call name arguments => Text.isName name && allWellFormed arguments
  | .binary _ left right => left.wellFormed && right.wellFormed
  | .quantified _ name body => Text.isName name && body.wellFormed

def allWellFormed : List Expression → Bool
  | [] => true
  | e :: es => e.wellFormed && allWellFormed es

end

mutual

/-- How deep the written form nests: a quantifier counts twice, since it stands in parentheses. -/
def depth : Expression → Nat
  | .var _ => 1
  | .call _ arguments => 1 + depthOfAll arguments
  | .binary _ left right => 1 + max left.depth right.depth
  | .quantified _ _ body => 2 + body.depth

def depthOfAll : List Expression → Nat
  | [] => 0
  | e :: es => max e.depth (depthOfAll es)

end

mutual

/-- The connectives of the formula, from left to right. -/
def connectives : Expression → List Connective
  | .var _ => []
  | .call _ arguments => connectivesOfAll arguments
  | .binary kind left right => left.connectives ++ kind :: right.connectives
  | .quantified _ _ body => body.connectives

def connectivesOfAll : List Expression → List Connective
  | [] => []
  | e :: es => e.connectives ++ connectivesOfAll es

end

mutual

/-- The operand that the formula is written as. -/
def written : Expression → Primary
  | .var name => .var name
  | .call name arguments => .call name (allWritten arguments)
  | .binary kind left right => .group (.chain left.written [(kind, right.written)])
  | .quantified quantifier name body =>
      .group (.chain (.quantification quantifier name (.chain body.written [])) [])

def allWritten : List Expression → List Phrase
  | [] => []
  | e :: es => .chain e.written [] :: allWritten es

end

theorem isQuantification_written (e : Expression) : e.written.isQuantification = false := by
  cases e <;> rfl

mutual

theorem maximal_written : ∀ e : Expression, e.written.Maximal
  | .var _ => trivial
  | .call _ arguments => allMaximal_allWritten arguments
  | .binary _ left right =>
      ⟨maximal_written left, fun _ => isQuantification_written left, maximal_written right,
        fun more => absurd rfl more, trivial⟩
  | .quantified quantifier name body => by
      have inside : (Primary.quantification quantifier name (.chain body.written [])).Maximal :=
        Phrase.maximal_single (maximal_written body)
      exact Phrase.maximal_single inside

theorem allMaximal_allWritten : ∀ es : List Expression, Phrase.AllMaximal (allWritten es)
  | [] => trivial
  | e :: es => ⟨Phrase.maximal_single (maximal_written e), allMaximal_allWritten es⟩

end

mutual

theorem nesting_written : ∀ e : Expression, e.written.nesting = e.depth
  | .var name => rfl
  | .call name arguments => by
      rw [written, Primary.nesting, nestingOfAll_allWritten, depth, Nat.add_comm]
  | .binary kind left right => by
      have leftDepth := nesting_written left
      have rightDepth := nesting_written right
      simp only [written, Primary.nesting, Phrase.nesting, Primary.nestingOfFurther, depth]
      omega
  | .quantified quantifier name body => by
      have bodyDepth := nesting_written body
      simp only [written, Primary.nesting, Phrase.nesting_single, depth]
      omega

theorem nestingOfAll_allWritten : ∀ es : List Expression,
    Phrase.nestingOfAll (allWritten es) = depthOfAll es
  | [] => rfl
  | e :: es => by
      rw [allWritten, Phrase.nestingOfAll, Phrase.nesting_single, nesting_written,
        nestingOfAll_allWritten, depthOfAll]

end

mutual

/-- The tree of the written form does not depend on the table. -/
theorem tree_written (table : Precedence) : ∀ e : Expression, e.written.tree table = e
  | .var name => rfl
  | .call name arguments => by
      rw [written, Primary.tree, treesOfAll_allWritten]
  | .binary kind left right => by
      simp only [written, Primary.tree, Phrase.tree, Primary.linksOfFurther,
        tree_written table left, tree_written table right]
      exact Chain.grouped_singleton left ⟨kind, right⟩
  | .quantified quantifier name body => by
      simp only [written, Primary.tree, Phrase.tree_single, tree_written table body]

theorem treesOfAll_allWritten (table : Precedence) : ∀ es : List Expression,
    Phrase.treesOfAll table (allWritten es) = es
  | [] => rfl
  | e :: es => by
      rw [allWritten, Phrase.treesOfAll, Phrase.tree_single, tree_written, treesOfAll_allWritten]

end

mutual

theorem connective_mem_written {kind : Connective} : ∀ {e : Expression},
    .connective kind ∈ e.written.tokens ↔ kind ∈ e.connectives
  | .var name => by simp [written, Primary.tokens, connectives]
  | .call name arguments => by
      simp [written, Primary.tokens, connectives, connective_mem_allWritten]
  | .binary other left right => by
      simp [written, Primary.tokens, Phrase.tokens, Primary.tokensOfFurther, connectives,
        connective_mem_written]
  | .quantified quantifier name body => by
      simp [written, Primary.tokens, Phrase.tokens_single, connectives, connective_mem_written]

theorem connective_mem_allWritten {kind : Connective} : ∀ {es : List Expression},
    .connective kind ∈ Phrase.tokensOfAll (allWritten es) ↔ kind ∈ connectivesOfAll es
  | [] => by simp [allWritten, Phrase.tokensOfAll, connectivesOfAll]
  | e :: es => by
      simp [allWritten, Phrase.tokensOfAll, Phrase.tokens_single, connectivesOfAll,
        connective_mem_written, connective_mem_furtherWritten]

theorem connective_mem_furtherWritten {kind : Connective} : ∀ {es : List Expression},
    .connective kind ∈ Phrase.tokensOfFurther (allWritten es) ↔ kind ∈ connectivesOfAll es
  | [] => by simp [allWritten, Phrase.tokensOfFurther, connectivesOfAll]
  | e :: es => by
      simp [allWritten, Phrase.tokensOfFurther, Phrase.tokens_single, connectivesOfAll,
        connective_mem_written, connective_mem_furtherWritten]

end

/-! ## The tokens of a written form -/

theorem apart_furtherText (es : List Expression) (rest : List Char) :
    Text.Apart ((furtherText es).toList ++ ')' :: rest) := by
  cases es with
  | nil => exact Text.apart_cons (by decide)
  | cons e es =>
      have shape : (furtherText (e :: es)).toList ++ ')' :: rest =
          ',' :: (' ' :: (e.text.toList ++ ((furtherText es).toList ++ ')' :: rest))) := by
        simp [furtherText]
      rw [shape]
      exact Text.apart_cons (by decide)

open Text in
mutual

theorem tokensOf_text : ∀ {e : Expression} {rest : List Char},
    e.wellFormed = true → Apart rest →
    tokensOf (e.text.toList ++ rest) = e.written.tokens ++ tokensOf rest
  | .var name, rest, named, apart => by
      rw [text, tokensOf_name named apart, written, Primary.tokens, List.singleton_append]
  | .call name arguments, rest, formed, _ => by
      obtain ⟨named, inside⟩ := Bool.and_eq_true_iff.mp formed
      have opening : Apart ('(' :: ((argumentsText arguments).toList ++ ')' :: rest)) :=
        apart_cons (by decide)
      have shape : (text (.call name arguments)).toList ++ rest =
          name.toList ++ '(' :: ((argumentsText arguments).toList ++ ')' :: rest) := by
        simp [text]
      rw [shape, tokensOf_name named opening, tokensOf_punctuation _ (by decide),
        tokensOf_argumentsText inside, written, Primary.tokens]
      simp
  | .binary kind left right, rest, formed, _ => by
      obtain ⟨leftFormed, rightFormed⟩ := Bool.and_eq_true_iff.mp formed
      have shape : (text (.binary kind left right)).toList ++ rest =
          '(' :: (left.text.toList ++
            ' ' :: (kind.glyph.toList ++ ' ' :: (right.text.toList ++ ')' :: rest))) := by
        simp [text]
      rw [shape, tokensOf_punctuation _ (by decide),
        tokensOf_text leftFormed (apart_cons (by decide)), tokensOf_space, tokensOf_glyph,
        tokensOf_space, tokensOf_text rightFormed (apart_cons (by decide)),
        tokensOf_punctuation _ (by decide), written, Primary.tokens, Phrase.tokens]
      simp [Primary.tokensOfFurther]
  | .quantified quantifier name body, rest, formed, _ => by
      obtain ⟨named, inside⟩ := Bool.and_eq_true_iff.mp formed
      have shape : (text (.quantified quantifier name body)).toList ++ rest =
          '(' :: (quantifier.keyword.toList ++
            ' ' :: (name.toList ++ ',' :: ' ' :: (body.text.toList ++ ')' :: rest))) := by
        simp [text]
      rw [shape, tokensOf_punctuation _ (by decide),
        tokensOf_keyword quantifier (apart_cons (by decide)), tokensOf_space,
        tokensOf_name named (apart_cons (by decide)), tokensOf_punctuation _ (by decide),
        tokensOf_space, tokensOf_text inside (apart_cons (by decide)),
        tokensOf_punctuation _ (by decide), written, Primary.tokens, Phrase.tokens_single,
        Primary.tokens, Phrase.tokens_single]
      simp

theorem tokensOf_argumentsText : ∀ {es : List Expression} {rest : List Char},
    allWellFormed es = true →
    tokensOf ((argumentsText es).toList ++ ')' :: rest) =
      Phrase.tokensOfAll (allWritten es) ++ .symbol ')' :: tokensOf rest
  | [], rest, _ => tokensOf_punctuation rest (by decide)
  | e :: es, rest, formed => by
      obtain ⟨first, further⟩ := Bool.and_eq_true_iff.mp formed
      have shape : (argumentsText (e :: es)).toList ++ ')' :: rest =
          e.text.toList ++ ((furtherText es).toList ++ ')' :: rest) := by
        simp [argumentsText]
      rw [shape, tokensOf_text first (apart_furtherText es rest), tokensOf_furtherText further,
        allWritten, Phrase.tokensOfAll, Phrase.tokens_single, List.append_assoc]

theorem tokensOf_furtherText : ∀ {es : List Expression} {rest : List Char},
    allWellFormed es = true →
    tokensOf ((furtherText es).toList ++ ')' :: rest) =
      Phrase.tokensOfFurther (allWritten es) ++ .symbol ')' :: tokensOf rest
  | [], rest, _ => tokensOf_punctuation rest (by decide)
  | e :: es, rest, formed => by
      obtain ⟨first, further⟩ := Bool.and_eq_true_iff.mp formed
      have shape : (furtherText (e :: es)).toList ++ ')' :: rest =
          ',' :: ' ' :: (e.text.toList ++ ((furtherText es).toList ++ ')' :: rest)) := by
        simp [furtherText]
      rw [shape, tokensOf_punctuation _ (by decide), tokensOf_space,
        tokensOf_text first (apart_furtherText es rest), tokensOf_furtherText further,
        allWritten, Phrase.tokensOfFurther, Phrase.tokens_single, List.cons_append,
        List.append_assoc]

end

end Expression

/-! ## Definitions -/

def Prototype.wellFormed (p : Prototype) : Bool :=
  Text.isName p.name && p.parameters.all Text.isName

def Definition.wellFormed (d : Definition) : Bool :=
  d.prototype.wellFormed && d.body.wellFormed

namespace Prototype

/-- The call that looks like the prototype. -/
def asCall (p : Prototype) : Expression :=
  .call p.name (p.parameters.map .var)

theorem text_asCall (p : Prototype) : p.asCall.text = p.text := by
  have names : p.parameters.map (Expression.text ∘ .var) = p.parameters := by
    have same : Expression.text ∘ .var = id := rfl
    rw [same, List.map_id]
  rw [asCall, Expression.text, Expression.argumentsText_eq, List.map_map, names, text]

theorem wellFormed_asCall {p : Prototype} (formed : p.wellFormed = true) :
    p.asCall.wellFormed = true := by
  obtain ⟨named, allNamed⟩ := Bool.and_eq_true_iff.mp formed
  have inside : ∀ names : List String, names.all Text.isName = true →
      Expression.allWellFormed (names.map .var) = true := by
    intro names
    induction names with
    | nil => exact fun _ => rfl
    | cons x later ih =>
        intro all
        obtain ⟨first, further⟩ := Bool.and_eq_true_iff.mp all
        exact Bool.and_eq_true_iff.mpr ⟨first, ih further⟩
  exact Bool.and_eq_true_iff.mpr ⟨named, inside p.parameters allNamed⟩

theorem tokens_asCall (p : Prototype) : p.asCall.written.tokens = p.tokens := by
  have further : ∀ names : List String,
      Phrase.tokensOfFurther (Expression.allWritten (names.map .var)) = tokensOfFurther names := by
    intro names
    induction names with
    | nil => rfl
    | cons x later ih =>
        rw [List.map_cons, Expression.allWritten, Phrase.tokensOfFurther, ih,
          Phrase.tokens_single, tokensOfFurther]
        rfl
  have inside : Phrase.tokensOfAll (Expression.allWritten (p.parameters.map .var)) =
      tokensOfParameters p.parameters := by
    cases p.parameters with
    | nil => rfl
    | cons x later =>
        rw [List.map_cons, Expression.allWritten, Phrase.tokensOfAll, further,
          Phrase.tokens_single, tokensOfParameters]
        rfl
  rw [asCall, Expression.written, Primary.tokens, inside, tokens]

end Prototype

namespace Definition

open Text in
theorem tokensOf_text {d : Definition} {rest : List Char} (formed : d.wellFormed = true)
    (apart : Apart rest) :
    tokensOf (d.text.toList ++ rest) =
      .define :: (d.prototype.tokens ++ (d.body.written.tokens ++ tokensOf rest)) := by
  obtain ⟨headFormed, bodyFormed⟩ := Bool.and_eq_true_iff.mp formed
  have callFormed := Prototype.wellFormed_asCall headFormed
  have shape : d.text.toList ++ rest =
      "def".toList ++ ' ' :: (d.prototype.asCall.text.toList ++
        ' ' :: (d.body.text.toList ++ rest)) := by
    simp [text, Prototype.text_asCall]
  have keyword : ∀ rest, Apart rest →
      tokensOf ("def".toList ++ rest) = .define :: tokensOf rest := by
    intro rest apart
    exact tokensOf_word (by decide) apart
  rw [shape, keyword _ (apart_cons (by decide)), tokensOf_space,
    Expression.tokensOf_text callFormed (apart_cons (by decide)), tokensOf_space,
    Expression.tokensOf_text bodyFormed apart, Prototype.tokens_asCall]

theorem tokens_text {d : Definition} (formed : d.wellFormed = true) :
    Text.tokens d.text = .define :: (d.prototype.tokens ++ d.body.written.tokens) := by
  have all := tokensOf_text formed Text.apart_nil
  rw [List.append_nil, Text.tokensOf_nil, List.append_nil] at all
  rw [Text.tokens_eq, all]

end Definition

/-! ## Reading back what was written -/

namespace Expression

theorem tokens_text {e : Expression} (formed : e.wellFormed = true) :
    Text.tokens e.text = e.written.tokens := by
  have all := tokensOf_text formed Text.apart_nil
  rw [List.append_nil, Text.tokensOf_nil, List.append_nil] at all
  rw [Text.tokens_eq, all]

/-- The phrase that a formula is written as is the only maximal one with its tokens. -/
theorem eq_chain_written {e : Expression} {phrase : Phrase}
    (maximal : phrase.Maximal)
    (same : phrase.tokens = e.written.tokens) :
    phrase = .chain e.written [] := by
  have writtenMaximal := Phrase.maximal_single (maximal_written e)
  apply Phrase.eq_of_tokens_eq maximal writtenMaximal
  rw [Phrase.tokens_single, same]

theorem derived_written_iff (table : Precedence) (e : Expression) :
    (∃ phrase : Phrase, phrase.tokens = e.written.tokens ∧ phrase.Maximal ∧
        phrase.nesting ≤ 256 ∧ table.Binds phrase.tokens ∧ phrase.tree table = e) ↔
      e.depth ≤ 256 ∧ ∀ kind ∈ e.connectives, 0 ≤ table.of kind := by
  have binds_iff : table.Binds e.written.tokens ↔ ∀ kind ∈ e.connectives, 0 ≤ table.of kind := by
    simp only [Precedence.Binds, connective_mem_written]
  rw [← binds_iff, ← nesting_written, ← Phrase.nesting_single]
  constructor
  · intro given
    rcases given with ⟨phrase, same, maximal, shallow, binds, _⟩
    rw [same] at binds
    rw [eq_chain_written maximal same] at shallow
    exact ⟨shallow, binds⟩
  · intro given
    rcases given with ⟨shallow, binds⟩
    have sameTokens := Phrase.tokens_single e.written
    have sameTree := (Phrase.tree_single table e.written).trans (tree_written table e)
    rw [← sameTokens] at binds
    have maximal := Phrase.maximal_single (maximal_written e)
    exact ⟨.chain e.written [], sameTokens, maximal, shallow, binds, sameTree⟩

end Expression

/-- A written form is parsed back to what was written exactly if it is not nested too deep and the
table excludes none of its connectives. -/
theorem parse_text_eq_ok_iff (table : Precedence) :
    (∀ e : Expression, e.wellFormed = true →
      ((parseExpression e.text table).result = .ok e ↔
        e.depth ≤ 256 ∧ ∀ kind ∈ e.connectives, 0 ≤ table.of kind)) ∧
    (∀ d : Definition, d.wellFormed = true →
      ((parseDefinition d.text table).result = .ok d ↔
        d.body.depth ≤ 256 ∧ ∀ kind ∈ d.body.connectives, 0 ≤ table.of kind)) := by
  constructor
  · intro e formed
    rw [parseExpression_ok_iff, Expression.tokens_text formed, Expression.derived_written_iff]
  · intro d formed
    rw [parseDefinition_ok_iff, Definition.tokens_text formed, ← Expression.derived_written_iff]
    constructor
    · intro given
      rcases given with ⟨first, phrase, same, reads⟩
      have sameBody := List.append_cancel_left (List.cons.inj same).2
      exact ⟨phrase, sameBody.symm, reads⟩
    · intro given
      rcases given with ⟨phrase, sameBody, reads⟩
      refine ⟨.define, phrase, ?_, reads⟩
      rw [sameBody]

theorem parses_text_of_quantified_disjunction :
    let e : Expression := .quantified .universal "x" (.binary .or (.call "P" [.var "x"]) (.var "q"))
    let d : Definition := ⟨⟨"f", ["x", "x"]⟩, e⟩
    d.wellFormed = true ∧ (parseExpression e.text ⟨-1, 0⟩).result = .ok e ∧
      (parseDefinition d.text ⟨-1, 0⟩).result = .ok d := by
  intro e d
  have formed : e.wellFormed = true := by decide
  have definitionFormed : d.wellFormed = true := by decide
  have readable : e.depth ≤ 256 ∧ ∀ kind ∈ e.connectives, 0 ≤ (⟨-1, 0⟩ : Precedence).of kind := by
    decide
  have ⟨expressions, definitions⟩ := parse_text_eq_ok_iff ⟨-1, 0⟩
  exact ⟨definitionFormed, (expressions e formed).mpr readable,
    (definitions d definitionFormed).mpr readable⟩

end FormulaReader
