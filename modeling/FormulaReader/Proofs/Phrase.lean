import FormulaReader.Proofs.Grouping

/-!
Phrases: derivations by the grammar of expressions. A phrase keeps its parentheses and its chains
as they were written, so that it says which tokens it was derived from; its tree has forgotten
both.

    phrase  ::= primary (connective primary)*
    primary ::= quantifier identifier ',' phrase
              | identifier ('(' (phrase (',' phrase)*)? ')')?
              | '(' phrase ')'

The grammar is ambiguous, because the body of a quantification may end before any connective. In a
maximal phrase it never does, and a maximal phrase is determined by its tokens.
-/

namespace FormulaReader

mutual

inductive Primary where
  | var (name : String)
  | call (name : String) (arguments : List Phrase)
  | group (inner : Phrase)
  | quantification (quantifier : Quantifier) (name : String) (body : Phrase)

inductive Phrase where
  | chain (first : Primary) (further : List (Connective × Primary))

end

/-! ## What a phrase says -/

mutual

def Primary.tokens : Primary → List Token
  | .var name => [.identifier name]
  | .call name arguments =>
      .identifier name :: .symbol '(' :: (Phrase.tokensOfAll arguments ++ [.symbol ')'])
  | .group inner => .symbol '(' :: (inner.tokens ++ [.symbol ')'])
  | .quantification quantifier name body =>
      .quantifier quantifier :: .identifier name :: .symbol ',' :: body.tokens

/-- The tokens that the phrase was derived from. -/
def Phrase.tokens : Phrase → List Token
  | .chain first further => first.tokens ++ Primary.tokensOfFurther further

def Primary.tokensOfFurther : List (Connective × Primary) → List Token
  | [] => []
  | (kind, operand) :: later =>
      .connective kind :: (operand.tokens ++ Primary.tokensOfFurther later)

def Phrase.tokensOfAll : List Phrase → List Token
  | [] => []
  | first :: further => first.tokens ++ Phrase.tokensOfFurther further

def Phrase.tokensOfFurther : List Phrase → List Token
  | [] => []
  | next :: later => .symbol ',' :: (next.tokens ++ Phrase.tokensOfFurther later)

end

mutual

def Primary.tree (table : Precedence) : Primary → Expression
  | .var name => .var name
  | .call name arguments => .call name (Phrase.treesOfAll table arguments)
  | .group inner => inner.tree table
  | .quantification quantifier name body => .quantified quantifier name (body.tree table)

/-- The tree of the phrase: parentheses leave no node, and chains are grouped by precedence. -/
def Phrase.tree (table : Precedence) : Phrase → Expression
  | .chain first further =>
      Chain.grouped table (first.tree table) (Primary.linksOfFurther table further)

def Primary.linksOfFurther (table : Precedence) : List (Connective × Primary) → List Link
  | [] => []
  | (kind, operand) :: later =>
      ⟨kind, operand.tree table⟩ :: Primary.linksOfFurther table later

def Phrase.treesOfAll (table : Precedence) : List Phrase → List Expression
  | [] => []
  | next :: later => next.tree table :: Phrase.treesOfAll table later

end

mutual

def Primary.nesting : Primary → Nat
  | .var _ => 1
  | .call _ arguments => Phrase.nestingOfAll arguments + 1
  | .group inner => inner.nesting + 1
  | .quantification _ _ body => body.nesting + 1

/-- How many primaries of the phrase are nested inside one another. -/
def Phrase.nesting : Phrase → Nat
  | .chain first further => max first.nesting (Primary.nestingOfFurther further)

def Primary.nestingOfFurther : List (Connective × Primary) → Nat
  | [] => 0
  | (_, operand) :: later => max operand.nesting (Primary.nestingOfFurther later)

def Phrase.nestingOfAll : List Phrase → Nat
  | [] => 0
  | next :: later => max next.nesting (Phrase.nestingOfAll later)

end

def Primary.isQuantification : Primary → Bool
  | .quantification .. => true
  | _ => false

mutual

def Primary.Maximal : Primary → Prop
  | .var _ => True
  | .call _ arguments => Phrase.AllMaximal arguments
  | .group inner => inner.Maximal
  | .quantification _ _ body => body.Maximal

/-- Every body of a quantification extends as far as it can: no connective follows the
quantification in the chain that it stands in. -/
def Phrase.Maximal : Phrase → Prop
  | .chain first further =>
      first.Maximal ∧ (further ≠ [] → first.isQuantification = false) ∧
        Primary.FurtherMaximal further

def Primary.FurtherMaximal : List (Connective × Primary) → Prop
  | [] => True
  | (_, operand) :: later =>
      operand.Maximal ∧ (later ≠ [] → operand.isQuantification = false) ∧
        Primary.FurtherMaximal later

def Phrase.AllMaximal : List Phrase → Prop
  | [] => True
  | next :: later => next.Maximal ∧ Phrase.AllMaximal later

end

/-! ## Chains of one operand -/

namespace Phrase

theorem tokens_single (operand : Primary) : (chain operand []).tokens = operand.tokens := by
  rw [tokens, Primary.tokensOfFurther, List.append_nil]

theorem tree_single (table : Precedence) (operand : Primary) :
    (chain operand []).tree table = operand.tree table := by
  rw [tree, Primary.linksOfFurther, Chain.grouped_nil]

theorem nesting_single (operand : Primary) : (chain operand []).nesting = operand.nesting := by
  rw [nesting, Primary.nestingOfFurther, Nat.max_zero]

theorem maximal_single {operand : Primary} (maximal : operand.Maximal) :
    (chain operand []).Maximal :=
  ⟨maximal, fun more => absurd rfl more, trivial⟩

end Phrase

/-! ## First tokens -/

/-- Whether an operand can begin with the token. -/
def Token.opensOperand : Token → Bool
  | .quantifier _ => true
  | .identifier _ => true
  | .symbol c => c = '('
  | _ => false

theorem Primary.tokens_eq_cons (operand : Primary) :
    ∃ first rest, operand.tokens = first :: rest ∧ first.opensOperand = true := by
  cases operand with
  | var name => exact ⟨.identifier name, [], by simp [tokens], rfl⟩
  | call name arguments => exact ⟨.identifier name, _, by rw [tokens], rfl⟩
  | group inner => exact ⟨.symbol '(', _, by rw [tokens], rfl⟩
  | quantification quantifier name body => exact ⟨.quantifier quantifier, _, by rw [tokens], rfl⟩

theorem Phrase.tokens_eq_cons (phrase : Phrase) :
    ∃ first rest, phrase.tokens = first :: rest ∧ first.opensOperand = true := by
  cases phrase with
  | chain operand further =>
      obtain ⟨first, rest, shape, opens⟩ := operand.tokens_eq_cons
      exact ⟨first, rest ++ Primary.tokensOfFurther further, by
        rw [tokens, shape, List.cons_append], opens⟩

theorem Phrase.tokens_ne_nil (phrase : Phrase) : phrase.tokens ≠ [] := by
  obtain ⟨first, rest, shape, _⟩ := phrase.tokens_eq_cons
  simp [shape]

/-! ## Foreign tokens -/

/-- Whether the token occurs in no phrase. -/
def Token.foreign : Token → Bool
  | .endOfInput => true
  | .define => true
  | .symbol character => character ≠ '(' && character ≠ ')' && character ≠ ','
  | _ => false

mutual

theorem Primary.not_foreign_of_mem : ∀ {operand : Primary} {token : Token},
    token ∈ operand.tokens → token.foreign = false
  | .var name, token, member => by
      simp only [Primary.tokens, List.mem_singleton] at member
      rw [member]
      rfl
  | .call name arguments, token, member => by
      simp only [Primary.tokens, List.mem_cons, List.mem_append, List.not_mem_nil,
        or_false] at member
      rcases member with rfl | rfl | inside | rfl
      · rfl
      · rfl
      · exact Phrase.not_foreign_of_mem_all inside
      · rfl
  | .group inner, token, member => by
      simp only [Primary.tokens, List.mem_cons, List.mem_append, List.not_mem_nil,
        or_false] at member
      rcases member with rfl | inside | rfl
      · rfl
      · exact Phrase.not_foreign_of_mem inside
      · rfl
  | .quantification quantifier name body, token, member => by
      simp only [Primary.tokens, List.mem_cons] at member
      rcases member with rfl | rfl | rfl | inside
      · rfl
      · rfl
      · rfl
      · exact Phrase.not_foreign_of_mem inside

theorem Phrase.not_foreign_of_mem : ∀ {phrase : Phrase} {token : Token},
    token ∈ phrase.tokens → token.foreign = false
  | .chain first further, token, member => by
      simp only [Phrase.tokens, List.mem_append] at member
      rcases member with inFirst | inFurther
      · exact Primary.not_foreign_of_mem inFirst
      · exact Primary.not_foreign_of_mem_further inFurther

theorem Primary.not_foreign_of_mem_further :
    ∀ {further : List (Connective × Primary)} {token : Token},
    token ∈ Primary.tokensOfFurther further → token.foreign = false
  | [], token, member => by simp [Primary.tokensOfFurther] at member
  | (kind, operand) :: later, token, member => by
      simp only [Primary.tokensOfFurther, List.mem_cons, List.mem_append] at member
      rcases member with rfl | inOperand | inLater
      · rfl
      · exact Primary.not_foreign_of_mem inOperand
      · exact Primary.not_foreign_of_mem_further inLater

theorem Phrase.not_foreign_of_mem_all : ∀ {phrases : List Phrase} {token : Token},
    token ∈ Phrase.tokensOfAll phrases → token.foreign = false
  | [], token, member => by simp [Phrase.tokensOfAll] at member
  | first :: further, token, member => by
      simp only [Phrase.tokensOfAll, List.mem_append] at member
      rcases member with inFirst | inFurther
      · exact Phrase.not_foreign_of_mem inFirst
      · exact Phrase.not_foreign_of_mem_further inFurther

theorem Phrase.not_foreign_of_mem_further : ∀ {further : List Phrase} {token : Token},
    token ∈ Phrase.tokensOfFurther further → token.foreign = false
  | [], token, member => by simp [Phrase.tokensOfFurther] at member
  | next :: later, token, member => by
      simp only [Phrase.tokensOfFurther, List.mem_cons, List.mem_append] at member
      rcases member with rfl | inNext | inLater
      · rfl
      · exact Phrase.not_foreign_of_mem inNext
      · exact Phrase.not_foreign_of_mem_further inLater

end

theorem Phrase.endOfInput_not_mem_tokens (phrase : Phrase) : .endOfInput ∉ phrase.tokens := by
  intro member
  cases not_foreign_of_mem member

/-! ## Maximal phrases are determined by their tokens -/

/-- The operand cannot go on with `rest`. -/
def Primary.EndsBefore (operand : Primary) (rest : List Token) : Prop :=
  ∀ next ∈ rest.head?, next ≠ .symbol '(' ∧
    (operand.isQuantification = true → ∀ kind, next ≠ .connective kind)

/-- No chain of operands can go on with `rest`. -/
def Phrase.EndBefore (rest : List Token) : Prop :=
  ∀ next ∈ rest.head?, next ≠ .symbol '(' ∧ ∀ kind, next ≠ .connective kind

theorem Phrase.endBefore_nil : EndBefore [] := by
  simp [EndBefore]

theorem Phrase.endBefore_closing (rest : List Token) : EndBefore (.symbol ')' :: rest) := by
  simp [EndBefore]

theorem Phrase.endBefore_tokensOfFurther (further : List Phrase) (rest : List Token) :
    EndBefore (Phrase.tokensOfFurther further ++ .symbol ')' :: rest) := by
  cases further with
  | nil => exact endBefore_closing rest
  | cons next later => simp [EndBefore, Phrase.tokensOfFurther]

theorem Primary.endsBefore_tokensOfFurther {operand : Primary}
    {further : List (Connective × Primary)} {rest : List Token}
    (notBeforeConnective : further ≠ [] → operand.isQuantification = false)
    (ends : Phrase.EndBefore rest) :
    operand.EndsBefore (Primary.tokensOfFurther further ++ rest) := by
  cases further with
  | nil =>
      intro next head
      exact ⟨(ends next head).1, fun _ => (ends next head).2⟩
  | cons link later =>
      have notQuantification := notBeforeConnective (by simp)
      simp [EndsBefore, Primary.tokensOfFurther, notQuantification]

mutual

theorem Primary.eq_of_tokens_append : ∀ {operand other : Primary} {rest left : List Token},
    operand.Maximal → other.Maximal → operand.EndsBefore rest → other.EndsBefore left →
    operand.tokens ++ rest = other.tokens ++ left → operand = other ∧ rest = left
  | .var name, other, rest, left, _, _, ends, _, same => by
      cases other with
      | var otherName => simpa [Primary.tokens] using same
      | call otherName arguments =>
          simp only [Primary.tokens, List.cons_append, List.nil_append, List.cons.injEq] at same
          have opening := (ends (.symbol '(') (by simp [same.2])).1
          exact absurd rfl opening
      | group inner => simp [Primary.tokens] at same
      | quantification quantifier otherName body => simp [Primary.tokens] at same
  | .call name arguments, other, rest, left, maximal, otherMaximal, _, otherEnds, same => by
      cases other with
      | var otherName =>
          simp only [Primary.tokens, List.cons_append, List.nil_append, List.cons.injEq] at same
          have opening := (otherEnds (.symbol '(') (by simp [← same.2])).1
          exact absurd rfl opening
      | call otherName otherArguments =>
          simp only [Primary.tokens, List.cons_append, List.append_assoc, List.nil_append,
            List.cons.injEq, Token.identifier.injEq, true_and] at same
          obtain ⟨sameName, sameArguments⟩ := same
          have inner := Phrase.eq_of_tokensOfAll_append maximal otherMaximal sameArguments
          exact ⟨by rw [sameName, inner.1], inner.2⟩
      | group inner => simp [Primary.tokens] at same
      | quantification quantifier otherName body => simp [Primary.tokens] at same
  | .group inner, other, rest, left, maximal, otherMaximal, _, _, same => by
      cases other with
      | group otherInner =>
          simp only [Primary.tokens, List.cons_append, List.append_assoc, List.nil_append,
            List.cons.injEq, true_and] at same
          have inside := Phrase.eq_of_tokens_append maximal otherMaximal
            (Phrase.endBefore_closing rest) (Phrase.endBefore_closing left) same
          exact ⟨by rw [inside.1], (List.cons.inj inside.2).2⟩
      | var otherName => simp [Primary.tokens] at same
      | call otherName arguments => simp [Primary.tokens] at same
      | quantification quantifier otherName body => simp [Primary.tokens] at same
  | .quantification quantifier name body, other, rest, left, maximal, otherMaximal, ends,
      otherEnds, same => by
      cases other with
      | quantification otherQuantifier otherName otherBody =>
          simp only [Primary.tokens, List.cons_append, List.cons.injEq, Token.quantifier.injEq,
            Token.identifier.injEq, true_and] at same
          obtain ⟨sameQuantifier, sameName, sameBody⟩ := same
          have bodyEnds : Phrase.EndBefore rest := fun next head =>
            ⟨(ends next head).1, (ends next head).2 rfl⟩
          have otherBodyEnds : Phrase.EndBefore left := fun next head =>
            ⟨(otherEnds next head).1, (otherEnds next head).2 rfl⟩
          have inside :=
            Phrase.eq_of_tokens_append maximal otherMaximal bodyEnds otherBodyEnds sameBody
          exact ⟨by rw [sameQuantifier, sameName, inside.1], inside.2⟩
      | var otherName => simp [Primary.tokens] at same
      | call otherName arguments => simp [Primary.tokens] at same
      | group inner => simp [Primary.tokens] at same

/-- Unique readability: two maximal phrases that begin the same text, and that nothing after them
extends, are the same phrase. -/
theorem Phrase.eq_of_tokens_append : ∀ {phrase other : Phrase} {rest left : List Token},
    phrase.Maximal → other.Maximal → Phrase.EndBefore rest → Phrase.EndBefore left →
    phrase.tokens ++ rest = other.tokens ++ left → phrase = other ∧ rest = left
  | .chain first further, .chain otherFirst otherFurther, rest, left, maximal, otherMaximal, ends,
      otherEnds, same => by
      simp only [Phrase.tokens, List.append_assoc] at same
      have heads := Primary.eq_of_tokens_append maximal.1 otherMaximal.1
        (Primary.endsBefore_tokensOfFurther maximal.2.1 ends)
        (Primary.endsBefore_tokensOfFurther otherMaximal.2.1 otherEnds) same
      have tails := Primary.eq_of_tokensOfFurther_append maximal.2.2 otherMaximal.2.2 ends
        otherEnds heads.2
      exact ⟨by rw [heads.1, tails.1], tails.2⟩

theorem Primary.eq_of_tokensOfFurther_append :
    ∀ {further others : List (Connective × Primary)} {rest left : List Token},
    Primary.FurtherMaximal further → Primary.FurtherMaximal others → Phrase.EndBefore rest →
    Phrase.EndBefore left →
    Primary.tokensOfFurther further ++ rest = Primary.tokensOfFurther others ++ left →
    further = others ∧ rest = left
  | [], [], rest, left, _, _, _, _, same => ⟨rfl, same⟩
  | [], (kind, operand) :: later, rest, left, _, _, ends, _, same => by
      simp only [Primary.tokensOfFurther, List.nil_append, List.cons_append] at same
      have notConnective := (ends (.connective kind) (by simp [same])).2 kind
      exact absurd rfl notConnective
  | (kind, operand) :: later, [], rest, left, _, _, _, otherEnds, same => by
      simp only [Primary.tokensOfFurther, List.nil_append, List.cons_append] at same
      have notConnective := (otherEnds (.connective kind) (by simp [← same])).2 kind
      exact absurd rfl notConnective
  | (kind, operand) :: later, (otherKind, otherOperand) :: otherLater, rest, left, maximal,
      otherMaximal, ends, otherEnds, same => by
      simp only [Primary.tokensOfFurther, List.cons_append, List.append_assoc, List.cons.injEq,
        Token.connective.injEq] at same
      have heads := Primary.eq_of_tokens_append maximal.1 otherMaximal.1
        (Primary.endsBefore_tokensOfFurther maximal.2.1 ends)
        (Primary.endsBefore_tokensOfFurther otherMaximal.2.1 otherEnds) same.2
      have tails := Primary.eq_of_tokensOfFurther_append maximal.2.2 otherMaximal.2.2 ends
        otherEnds heads.2
      exact ⟨by rw [same.1, heads.1, tails.1], tails.2⟩

theorem Phrase.eq_of_tokensOfAll_append : ∀ {arguments others : List Phrase}
    {rest left : List Token},
    Phrase.AllMaximal arguments → Phrase.AllMaximal others →
    Phrase.tokensOfAll arguments ++ .symbol ')' :: rest =
      Phrase.tokensOfAll others ++ .symbol ')' :: left →
    arguments = others ∧ rest = left
  | [], [], rest, left, _, _, same => by simpa [Phrase.tokensOfAll] using same
  | [], next :: later, rest, left, _, _, same => by
      obtain ⟨first, tail, shape, opens⟩ := next.tokens_eq_cons
      simp only [Phrase.tokensOfAll, shape, List.nil_append, List.cons_append,
        List.cons.injEq] at same
      rw [← same.1] at opens
      simp [Token.opensOperand] at opens
  | next :: later, [], rest, left, _, _, same => by
      obtain ⟨first, tail, shape, opens⟩ := next.tokens_eq_cons
      simp only [Phrase.tokensOfAll, shape, List.nil_append, List.cons_append,
        List.cons.injEq] at same
      rw [same.1] at opens
      simp [Token.opensOperand] at opens
  | next :: later, other :: otherLater, rest, left, maximal, otherMaximal, same => by
      simp only [Phrase.tokensOfAll, List.append_assoc] at same
      have heads := Phrase.eq_of_tokens_append maximal.1 otherMaximal.1
        (Phrase.endBefore_tokensOfFurther later rest)
        (Phrase.endBefore_tokensOfFurther otherLater left) same
      have tails := Phrase.eq_of_tokensOfFurther_append maximal.2 otherMaximal.2 heads.2
      exact ⟨by rw [heads.1, tails.1], tails.2⟩

theorem Phrase.eq_of_tokensOfFurther_append : ∀ {further others : List Phrase}
    {rest left : List Token},
    Phrase.AllMaximal further → Phrase.AllMaximal others →
    Phrase.tokensOfFurther further ++ .symbol ')' :: rest =
      Phrase.tokensOfFurther others ++ .symbol ')' :: left →
    further = others ∧ rest = left
  | [], [], rest, left, _, _, same => by simpa [Phrase.tokensOfFurther] using same
  | [], next :: later, rest, left, _, _, same => by simp [Phrase.tokensOfFurther] at same
  | next :: later, [], rest, left, _, _, same => by simp [Phrase.tokensOfFurther] at same
  | next :: later, other :: otherLater, rest, left, maximal, otherMaximal, same => by
      simp only [Phrase.tokensOfFurther, List.cons_append, List.append_assoc, List.cons.injEq,
        true_and] at same
      have heads := Phrase.eq_of_tokens_append maximal.1 otherMaximal.1
        (Phrase.endBefore_tokensOfFurther later rest)
        (Phrase.endBefore_tokensOfFurther otherLater left) same
      have tails := Phrase.eq_of_tokensOfFurther_append maximal.2 otherMaximal.2 heads.2
      exact ⟨by rw [heads.1, tails.1], tails.2⟩

end

/-- A maximal phrase is determined by its tokens. -/
theorem Phrase.eq_of_tokens_eq {phrase other : Phrase}
    (maximal : phrase.Maximal)
    (otherMaximal : other.Maximal)
    (same : phrase.tokens = other.tokens) :
    phrase = other := by
  have whole : phrase.tokens ++ [] = other.tokens ++ [] := by
    rw [same]
  exact (Phrase.eq_of_tokens_append maximal otherMaximal endBefore_nil endBefore_nil whole).1

end FormulaReader
