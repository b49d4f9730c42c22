import FormulaReader.Proofs.Layout
import FormulaReader.Proofs.Printing

/-!
Names: a formula keeps the words and the connectives of the text that it was parsed from, in the
same order, and loses only the parentheses and the commas. So the names in it are names that the
scanner reads as such, and it can be written and read again.
-/

namespace FormulaReader

/-! ## What a formula keeps of its tokens -/

/-- Whether the token is a word or a connective, and no single character. -/
def Token.kept : Token → Bool
  | .symbol _ => false
  | _ => true

namespace Expression

mutual

/-- The quantifiers, names and connectives of the formula, from left to right. -/
def content : Expression → List Token
  | .var name => [.identifier name]
  | .call name arguments => .identifier name :: contentOfAll arguments
  | .binary kind left right => left.content ++ .connective kind :: right.content
  | .quantified quantifier name body => .quantifier quantifier :: .identifier name :: body.content

def contentOfAll : List Expression → List Token
  | [] => []
  | e :: es => e.content ++ contentOfAll es

end

mutual

/-- A formula is well-formed if its identifiers are names. -/
theorem wellFormed_iff_content : ∀ {e : Expression},
    e.wellFormed = true ↔ ∀ x, .identifier x ∈ e.content → Text.isName x = true
  | .var name => by simp [wellFormed, content]
  | .call name arguments => by
      simp [wellFormed, content, allWellFormed_iff_content, or_imp, forall_and]
  | .binary kind left right => by
      simp [wellFormed, content, wellFormed_iff_content, or_imp, forall_and]
  | .quantified quantifier name body => by
      simp [wellFormed, content, wellFormed_iff_content, or_imp, forall_and]

theorem allWellFormed_iff_content : ∀ {es : List Expression},
    allWellFormed es = true ↔ ∀ x, .identifier x ∈ contentOfAll es → Text.isName x = true
  | [] => by simp [allWellFormed, contentOfAll]
  | e :: es => by
      simp [allWellFormed, contentOfAll, wellFormed_iff_content, allWellFormed_iff_content,
        or_imp, forall_and]

end

end Expression

namespace Prototype

/-- The names of the function and of its parameters. -/
def content (p : Prototype) : List Token :=
  (p.name :: p.parameters).map .identifier

theorem wellFormed_iff_content {p : Prototype} :
    p.wellFormed = true ↔ ∀ x, .identifier x ∈ p.content → Text.isName x = true := by
  simp [wellFormed, content]

theorem filter_tokensOfFurther (names : List String) :
    (tokensOfFurther names).filter Token.kept = names.map .identifier := by
  induction names with
  | nil => rfl
  | cons x later ih => simp [tokensOfFurther, List.filter_cons, Token.kept, ih]

theorem content_eq_filter (p : Prototype) : p.content = p.tokens.filter Token.kept := by
  obtain ⟨name, parameters⟩ := p
  cases parameters with
  | nil => rfl
  | cons x later =>
      simp [content, tokens, tokensOfParameters, List.filter_cons, Token.kept,
        filter_tokensOfFurther]

end Prototype

namespace Definition

/-- What the prototype keeps, and then what the body does. -/
def content (f : Definition) : List Token :=
  f.prototype.content ++ f.body.content

theorem wellFormed_iff_content {f : Definition} :
    f.wellFormed = true ↔ ∀ x, .identifier x ∈ f.content → Text.isName x = true := by
  simp [wellFormed, content, Prototype.wellFormed_iff_content, Expression.wellFormed_iff_content,
    or_imp, forall_and]

end Definition

/-- What the links of a chain keep. -/
def Link.contentOfAll (links : List Link) : List Token :=
  links.flatMap fun link => .connective link.connective :: link.operand.content

/-- Grouping by precedence keeps the operands and the connectives in order. -/
theorem Chain.content_grouped (table : Precedence) (left : Expression) (links : List Link) :
    (grouped table left links).content = left.content ++ Link.contentOfAll links := by
  induction size : links.length using Nat.strongRecOn generalizing left links with
  | ind n ih =>
      cases found : loosest? table links with
      | none =>
          have nothing : links = [] := loosest?_eq_none_iff.mp found
          rw [nothing, grouped_nil]
          simp [Link.contentOfAll]
      | some parts =>
          obtain ⟨before, root, after⟩ := parts
          have splits := splits_of_loosest? found
          have lengths : before.length + after.length < n := by
            rw [← size, splits.whole]
            simp only [List.length_append, List.length_cons]
            omega
          have leftContent := ih before.length (by omega) left before rfl
          have rightContent := ih after.length (by omega) root.operand after rfl
          rw [grouped_of_splits left splits, Expression.content, leftContent, rightContent,
            splits.whole]
          simp [Link.contentOfAll]

mutual

theorem Primary.content_tree (table : Precedence) : ∀ operand : Primary,
    (operand.tree table).content = operand.tokens.filter Token.kept
  | .var name => rfl
  | .call name arguments => by
      simp [Primary.tree, Primary.tokens, Expression.content, Phrase.contentOfAll_trees,
        List.filter_cons, Token.kept]
  | .group inner => by
      simp [Primary.tree, Primary.tokens, Phrase.content_tree, Token.kept]
  | .quantification quantifier name body => by
      simp [Primary.tree, Primary.tokens, Expression.content, Phrase.content_tree,
        List.filter_cons, Token.kept]

/-- The tree of a phrase keeps all its tokens but the single characters, in order. -/
theorem Phrase.content_tree (table : Precedence) : ∀ phrase : Phrase,
    (phrase.tree table).content = phrase.tokens.filter Token.kept
  | .chain first further => by
      rw [Phrase.tree, Phrase.tokens, Chain.content_grouped, Primary.content_tree,
        Primary.contentOfAll_links, List.filter_append]

theorem Primary.contentOfAll_links (table : Precedence) :
    ∀ further : List (Connective × Primary),
    Link.contentOfAll (Primary.linksOfFurther table further) =
      (Primary.tokensOfFurther further).filter Token.kept
  | [] => rfl
  | (kind, operand) :: later => by
      have laterContent := Primary.contentOfAll_links table later
      rw [Link.contentOfAll] at laterContent
      simp [Link.contentOfAll, Primary.linksOfFurther, Primary.tokensOfFurther, laterContent,
        Primary.content_tree, List.filter_cons, Token.kept]

theorem Phrase.contentOfAll_trees (table : Precedence) : ∀ phrases : List Phrase,
    Expression.contentOfAll (Phrase.treesOfAll table phrases) =
      (Phrase.tokensOfAll phrases).filter Token.kept
  | [] => rfl
  | first :: further => by
      simp [Phrase.treesOfAll, Phrase.tokensOfAll, Expression.contentOfAll, Phrase.content_tree,
        Phrase.contentOfAll_further]

theorem Phrase.contentOfAll_further (table : Precedence) : ∀ further : List Phrase,
    Expression.contentOfAll (Phrase.treesOfAll table further) =
      (Phrase.tokensOfFurther further).filter Token.kept
  | [] => rfl
  | next :: later => by
      simp [Phrase.treesOfAll, Phrase.tokensOfFurther, Expression.contentOfAll,
        Phrase.content_tree, Phrase.contentOfAll_further, Token.kept]

end

/-! ## What is parsed can be written -/

section

variable {source : String} {table : Precedence}

/-- A parsed expression keeps all tokens of the text but the single characters, in order. -/
theorem Expression.content_of_parsed {e : Expression}
    (parsed : (parseExpression source table).result = .ok e) :
    e.content = (Text.tokens source).filter Token.kept := by
  obtain ⟨phrase, same, _, _, _, rfl⟩ := (parseExpression_ok_iff source table e).mp parsed
  rw [phrase.content_tree, same]

/-- So does a parsed definition, but for the first token. -/
theorem Definition.content_of_parsed {f : Definition}
    (parsed : (parseDefinition source table).result = .ok f) :
    ∃ first rest, Text.tokens source = first :: rest ∧ f.content = rest.filter Token.kept := by
  obtain ⟨first, phrase, shape, _, _, _, tree⟩ :=
    (parseDefinition_ok_iff source table f).mp parsed
  refine ⟨first, _, shape, ?_⟩
  rw [content, ← tree, Prototype.content_eq_filter, phrase.content_tree, List.filter_append]

/-- Every name in a parsed expression is a name that the scanner reads as one. -/
theorem Expression.wellFormed_of_parsed {e : Expression}
    (parsed : (parseExpression source table).result = .ok e) :
    e.wellFormed = true := by
  apply wellFormed_iff_content.mpr
  intro x member
  rw [content_of_parsed parsed] at member
  exact Text.isName_of_mem_tokens (List.mem_filter.mp member).1

/-- And so is every name in a parsed definition. -/
theorem Definition.wellFormed_of_parsed {f : Definition}
    (parsed : (parseDefinition source table).result = .ok f) :
    f.wellFormed = true := by
  obtain ⟨first, rest, shape, same⟩ := content_of_parsed parsed
  apply wellFormed_iff_content.mpr
  intro x member
  rw [same] at member
  apply Text.isName_of_mem_tokens
  rw [shape]
  exact List.mem_cons_of_mem first (List.mem_filter.mp member).1

end

end FormulaReader
