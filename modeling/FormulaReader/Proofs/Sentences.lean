import FormulaReader.Proofs.Definitions
import Mathlib.Computability.MyhillNerode

/-!
Sentences: the languages of expressions and of definitions, as the grammar gives them. Nothing is
said about the nesting, and any derivation will do. There always is a maximal one: where a chain
goes on behind a quantification, the rest of the chain can be drawn into its body.
-/

namespace FormulaReader

/-! ## Maximal derivations -/

theorem Primary.furtherMaximal_nil : Primary.FurtherMaximal [] := trivial

mutual

/-- An operand that a settled rest of a chain follows is settled along with it. -/
theorem Primary.exists_maximal : ∀ (operand : Primary) {further : List (Connective × Primary)},
    Primary.FurtherMaximal further →
    ∃ settled : Phrase, settled.Maximal ∧
      settled.tokens = operand.tokens ++ Primary.tokensOfFurther further
  | .var name, further, maximal =>
      ⟨.chain (.var name) further, ⟨trivial, fun _ => rfl, maximal⟩, by rw [Phrase.tokens]⟩
  | .call name arguments, further, maximal => by
      obtain ⟨settled, allMaximal, same⟩ := Phrase.exists_allMaximal arguments
      refine ⟨.chain (.call name settled) further, ⟨allMaximal, fun _ => rfl, maximal⟩, ?_⟩
      rw [Phrase.tokens, Primary.tokens, Primary.tokens, same]
  | .group inner, further, maximal => by
      obtain ⟨settled, innerMaximal, same⟩ := Phrase.exists_maximal inner Primary.furtherMaximal_nil
      rw [Primary.tokensOfFurther, List.append_nil] at same
      refine ⟨.chain (.group settled) further, ⟨innerMaximal, fun _ => rfl, maximal⟩, ?_⟩
      rw [Phrase.tokens, Primary.tokens, Primary.tokens, same]
  | .quantification quantifier name body, further, maximal => by
      -- The rest of the chain becomes the rest of the body, so nothing follows the quantification.
      obtain ⟨settled, bodyMaximal, same⟩ := Phrase.exists_maximal body maximal
      refine ⟨.chain (.quantification quantifier name settled) [],
        Phrase.maximal_single bodyMaximal, ?_⟩
      rw [Phrase.tokens_single, Primary.tokens, Primary.tokens, same]
      rfl

theorem Phrase.exists_maximal : ∀ (phrase : Phrase) {further : List (Connective × Primary)},
    Primary.FurtherMaximal further →
    ∃ settled : Phrase, settled.Maximal ∧
      settled.tokens = phrase.tokens ++ Primary.tokensOfFurther further
  | .chain first links, further, maximal => by
      obtain ⟨later, laterMaximal, sameLater⟩ := Primary.exists_furtherMaximal links maximal
      obtain ⟨settled, settledMaximal, same⟩ := Primary.exists_maximal first laterMaximal
      refine ⟨settled, settledMaximal, ?_⟩
      rw [same, sameLater, Phrase.tokens, List.append_assoc]

theorem Primary.exists_furtherMaximal :
    ∀ (links : List (Connective × Primary)) {further : List (Connective × Primary)},
    Primary.FurtherMaximal further →
    ∃ settled, Primary.FurtherMaximal settled ∧
      Primary.tokensOfFurther settled =
        Primary.tokensOfFurther links ++ Primary.tokensOfFurther further
  | [], further, maximal => ⟨further, maximal, rfl⟩
  | (kind, operand) :: links, further, maximal => by
      obtain ⟨later, laterMaximal, sameLater⟩ := Primary.exists_furtherMaximal links maximal
      obtain ⟨⟨first, rest⟩, settledMaximal, same⟩ := Primary.exists_maximal operand laterMaximal
      refine ⟨(kind, first) :: rest, settledMaximal, ?_⟩
      rw [Phrase.tokens, sameLater] at same
      rw [Primary.tokensOfFurther, Primary.tokensOfFurther, same, List.cons_append,
        List.append_assoc]

theorem Phrase.exists_allMaximal : ∀ phrases : List Phrase,
    ∃ settled, Phrase.AllMaximal settled ∧
      Phrase.tokensOfAll settled = Phrase.tokensOfAll phrases
  | [] => ⟨[], trivial, rfl⟩
  | first :: further => by
      obtain ⟨settled, maximal, same⟩ := Phrase.exists_maximal first Primary.furtherMaximal_nil
      obtain ⟨others, othersMaximal, sameOthers⟩ := Phrase.exists_allMaximal_further further
      rw [Primary.tokensOfFurther, List.append_nil] at same
      refine ⟨settled :: others, ⟨maximal, othersMaximal⟩, ?_⟩
      rw [Phrase.tokensOfAll, Phrase.tokensOfAll, same, sameOthers]

theorem Phrase.exists_allMaximal_further : ∀ further : List Phrase,
    ∃ settled, Phrase.AllMaximal settled ∧
      Phrase.tokensOfFurther settled = Phrase.tokensOfFurther further
  | [] => ⟨[], trivial, rfl⟩
  | next :: later => by
      obtain ⟨settled, maximal, same⟩ := Phrase.exists_maximal next Primary.furtherMaximal_nil
      obtain ⟨others, othersMaximal, sameOthers⟩ := Phrase.exists_allMaximal_further later
      rw [Primary.tokensOfFurther, List.append_nil] at same
      refine ⟨settled :: others, ⟨maximal, othersMaximal⟩, ?_⟩
      rw [Phrase.tokensOfFurther, Phrase.tokensOfFurther, same, sameOthers]

end

/-- Whatever has a derivation has a maximal one. -/
theorem Phrase.exists_maximal_tokens_eq (phrase : Phrase) :
    ∃ settled : Phrase, settled.Maximal ∧ settled.tokens = phrase.tokens := by
  obtain ⟨settled, maximal, same⟩ := phrase.exists_maximal Primary.furtherMaximal_nil
  rw [Primary.tokensOfFurther, List.append_nil] at same
  exact ⟨settled, maximal, same⟩

/-! ## The languages -/

namespace Sentence

/-- All that is an expression by the grammar. -/
def expressions : Language Token :=
  {tokens | ∃ phrase : Phrase, phrase.tokens = tokens}

/-- All that is a definition by the grammar. -/
def definitions : Language Token :=
  {tokens | ∃ (head : Prototype) (body : Phrase),
    .define :: (head.tokens ++ body.tokens) = tokens}

theorem endOfInput_not_mem_expressions {tokens : List Token}
    (sentence : tokens ∈ expressions) :
    .endOfInput ∉ tokens := by
  obtain ⟨phrase, rfl⟩ := sentence
  exact phrase.endOfInput_not_mem_tokens

theorem endOfInput_not_mem_definitions {tokens : List Token}
    (sentence : tokens ∈ definitions) :
    .endOfInput ∉ tokens := by
  obtain ⟨head, body, rfl⟩ := sentence
  intro member
  rcases List.mem_cons.mp member with first | later
  · cases first
  · exact head.endOfInput_not_mem_tokens_append body later

end Sentence

/-! ## Beginnings of sentences -/

/-- Some sentence begins with the tokens. -/
def Viable (L : Language Token) (tokens : List Token) : Prop :=
  ∃ rest, tokens ++ rest ∈ L

variable {L : Language Token} {first second tokens : List Token}

theorem Viable.of_mem (sentence : tokens ∈ L) : Viable L tokens := by
  refine ⟨[], ?_⟩
  rw [List.append_nil]
  exact sentence

theorem Viable.of_append (viable : Viable L (first ++ second)) : Viable L first := by
  obtain ⟨rest, sentence⟩ := viable
  refine ⟨second ++ rest, ?_⟩
  rw [← List.append_assoc]
  exact sentence

/-- What can come behind `first` is a language of its own. -/
theorem viable_leftQuotient_iff :
    Viable (L.leftQuotient first) second ↔ Viable L (first ++ second) := by
  simp only [Viable, Language.mem_leftQuotient, List.append_assoc]

end FormulaReader
