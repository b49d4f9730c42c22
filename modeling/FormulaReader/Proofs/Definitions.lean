import FormulaReader.Proofs.Recognition
import Mathlib.Control.Monad.Basic

/-!
Recognition of definitions: the parser reads exactly a token of any kind, the tokens of a
prototype, and a phrase that the parser of expressions reads.
-/

namespace FormulaReader

/-! ## The tokens of a prototype -/

namespace Prototype

/-- Names that each follow a comma. -/
def tokensOfFurther : List String → List Token
  | [] => []
  | x :: later => .symbol ',' :: .identifier x :: tokensOfFurther later

def tokensOfParameters : List String → List Token
  | [] => []
  | x :: later => .identifier x :: tokensOfFurther later

def tokens (p : Prototype) : List Token :=
  .identifier p.name :: .symbol '(' :: (tokensOfParameters p.parameters ++ [.symbol ')'])

theorem eq_of_tokensOfFurther_append {further others : List String} {rest left : List Token}
    (same : tokensOfFurther further ++ .symbol ')' :: rest =
      tokensOfFurther others ++ .symbol ')' :: left) :
    further = others ∧ rest = left := by
  induction further generalizing others with
  | nil =>
      cases others with
      | nil => simpa [tokensOfFurther] using same
      | cons y more => simp [tokensOfFurther] at same
  | cons x later ih =>
      cases others with
      | nil => simp [tokensOfFurther] at same
      | cons y more =>
          simp only [tokensOfFurther, List.cons_append, List.cons.injEq, Token.identifier.injEq,
            true_and] at same
          obtain ⟨sameName, sameLater⟩ := same
          have tails := ih sameLater
          rw [sameName, tails.1]
          exact ⟨rfl, tails.2⟩

theorem eq_of_tokensOfParameters_append {parameters others : List String}
    {rest left : List Token}
    (same : tokensOfParameters parameters ++ .symbol ')' :: rest =
      tokensOfParameters others ++ .symbol ')' :: left) :
    parameters = others ∧ rest = left := by
  cases parameters with
  | nil =>
      cases others with
      | nil => simpa [tokensOfParameters] using same
      | cons y more => simp [tokensOfParameters] at same
  | cons x later =>
      cases others with
      | nil => simp [tokensOfParameters] at same
      | cons y more =>
          simp only [tokensOfParameters, List.cons_append, List.cons.injEq,
            Token.identifier.injEq] at same
          obtain ⟨sameName, sameLater⟩ := same
          have tails := eq_of_tokensOfFurther_append sameLater
          rw [sameName, tails.1]
          exact ⟨rfl, tails.2⟩

/-- A prototype is determined by its tokens, whatever follows them. -/
theorem eq_of_tokens_append {p q : Prototype} {rest left : List Token}
    (same : p.tokens ++ rest = q.tokens ++ left) :
    p = q ∧ rest = left := by
  obtain ⟨name, parameters⟩ := p
  obtain ⟨otherName, others⟩ := q
  simp only [tokens, List.cons_append, List.append_assoc, List.nil_append, List.cons.injEq,
    Token.identifier.injEq, true_and] at same
  obtain ⟨sameName, sameParameters⟩ := same
  have inside := eq_of_tokensOfParameters_append sameParameters
  rw [sameName, inside.1]
  exact ⟨rfl, inside.2⟩

theorem not_foreign_of_mem_tokens {p : Prototype} {token : Token} (member : token ∈ p.tokens) :
    token.foreign = false := by
  have further : ∀ names, ∀ token ∈ tokensOfFurther names, token.foreign = false := by
    intro names
    induction names with
    | nil => simp [tokensOfFurther]
    | cons x later ih => simpa [tokensOfFurther, Token.foreign] using ih
  have inParameters : ∀ token ∈ tokensOfParameters p.parameters, token.foreign = false := by
    cases p.parameters with
    | nil => simp [tokensOfParameters]
    | cons x later => simpa [tokensOfParameters, Token.foreign] using further later
  simp only [tokens, List.mem_cons, List.mem_append, List.not_mem_nil, or_false] at member
  rcases member with rfl | rfl | inside | rfl
  · rfl
  · rfl
  · exact inParameters token inside
  · rfl

theorem endOfInput_not_mem_tokens_append (head : Prototype) (body : Phrase) :
    .endOfInput ∉ head.tokens ++ body.tokens := by
  intro member
  rcases List.mem_append.mp member with inHead | inBody
  · cases not_foreign_of_mem_tokens inHead
  · exact body.endOfInput_not_mem_tokens inBody

end Prototype

/-! ## What is read -/

namespace Parser

variable {c d : Cursor}

theorem repeats_name_iff {names : List String} {missing : Fault}
    (closes : d.token = .symbol ')') :
    Repeats comma (fun _ => name missing) c names d ↔
      c.Over (Prototype.tokensOfFurther names) d := by
  constructor
  · intro repetition
    induction repetition with
    | stop stops => exact rfl
    | step leads notEnd first _ ih =>
        obtain ⟨named, rfl⟩ := reads_name.mp first
        exact ⟨comma_eq_some_iff.mp leads, named, ih closes⟩
  · intro across
    induction names generalizing c with
    | nil =>
        cases across
        refine .stop fun u leads => ?_
        rw [comma_eq_some_iff.mp leads] at closes
        cases closes
    | cons x later ih =>
        obtain ⟨leads, named, rest⟩ := across
        have lead : comma c.token = some () := comma_eq_some_iff.mpr leads
        exact .step lead (by simp [leads]) (reads_name.mpr ⟨named, rfl⟩) (ih rest)

theorem reads_parameters_iff {names : List String} (closes : d.token = .symbol ')') :
    parameters.Reads c names d ↔ c.Over (Prototype.tokensOfParameters names) d := by
  rw [parameters, reads_bind]
  constructor
  · intro given
    rcases given with ⟨found, m, taken, rest⟩
    rcases reads_name?.mp taken with ⟨x, named, rfl, rfl⟩ | ⟨_, rfl, rfl⟩
    · obtain ⟨later, n, further, returned⟩ := reads_bind.mp rest
      obtain ⟨rfl, rfl⟩ := reads_pure.mp returned
      exact ⟨named, (repeats_name_iff closes).mp (reads_many.mp further)⟩
    · obtain ⟨rfl, rfl⟩ := reads_pure.mp rest
      exact rfl
  · intro across
    cases names with
    | nil =>
        cases across
        have noName : ∀ x, c.token ≠ .identifier x := by
          intro x named
          rw [named] at closes
          cases closes
        exact ⟨none, c, reads_name?.mpr (.inr ⟨noName, rfl, rfl⟩), reads_pure.mpr ⟨rfl, rfl⟩⟩
    | cons x later =>
        obtain ⟨named, rest⟩ := across
        have further : (many comma fun _ => name .expectedParameter).Reads c.advance later d :=
          reads_many.mpr ((repeats_name_iff closes).mpr rest)
        exact ⟨some x, c.advance, reads_name?.mpr (.inl ⟨x, named, rfl, rfl⟩),
          reads_bind.mpr ⟨later, d, further, reads_pure.mpr ⟨rfl, rfl⟩⟩⟩

theorem reads_prototype_iff {p : Prototype} :
    prototype.Reads c p d ↔ c.Over p.tokens d := by
  simp only [prototype, reads_bind, reads_name, reads_expect, reads_note, reads_pure]
  constructor
  · intro given
    rcases given with ⟨x, _, ⟨named, rfl⟩, _, _, ⟨opens, rfl⟩, names, m, read, _, _, ⟨closes,
      rfl⟩, _, _, rfl, rfl, rfl⟩
    have across := (reads_parameters_iff closes).mp read
    exact ⟨named, opens, Cursor.over_append.mpr ⟨m, across, closes, rfl⟩⟩
  · intro given
    rcases given with ⟨named, opens, rest⟩
    obtain ⟨m, across, closes, rfl⟩ := Cursor.over_append.mp rest
    have read := (reads_parameters_iff closes).mpr across
    exact ⟨p.name, _, ⟨named, rfl⟩, (), _, ⟨opens, rfl⟩, p.parameters, m, read, (), _,
      ⟨closes, rfl⟩, (), _, rfl, rfl, rfl⟩

theorem reads_definitionWithin_iff {table : Precedence} {room : Nat} {f : Definition} :
    (definitionWithin table room).Reads c f d ↔
      ∃ m, c.advance.Over f.prototype.tokens m ∧
        (chain table (primaryWithin table room)).Reads m f.body d := by
  simp only [definitionWithin, reads_bind, reads_advance, reads_prototype_iff, reads_note,
    reads_pure]
  constructor
  · intro given
    rcases given with ⟨_, _, rfl, head, m, across, body, n, read, _, _, rfl, rfl, rfl⟩
    exact ⟨m, across, read⟩
  · intro given
    rcases given with ⟨m, across, read⟩
    exact ⟨(), _, rfl, f.prototype, m, across, f.body, d, read, (), d, rfl, rfl, rfl⟩

end Parser

/-! ## Whole texts -/

/-- With any room for nesting, a text is read as a definition if, behind its first token, it has the
tokens of the prototype and then those of a phrase for the body. The first token is not looked
at. -/
theorem Parser.result_whole_definition_iff (source : String) (table : Precedence) (room : Nat)
    (f : Definition) :
    ((whole (definitionWithin table room)).run
        (Cursor.ofFeed (source.toList.map some))).result = .ok f ↔
      ∃ (first : Token) (phrase : Phrase),
        Text.tokens source = first :: (f.prototype.tokens ++ phrase.tokens) ∧
        phrase.Maximal ∧ phrase.nesting ≤ room ∧ table.Binds phrase.tokens ∧
        phrase.tree table = f.body := by
  obtain ⟨lexemes, finish, sourceTokens, isInner, atEnd, start⟩ := Text.advance_ofFeed source
  have inside := f.prototype.endOfInput_not_mem_tokens_append
  rw [result_eq_ok_iff, sourceTokens]
  simp only [reads_whole, start, reads_definitionWithin_iff,
    recognisesPhrases_chainWithin table room _ _ _]
  cases lexemes with
  | nil =>
      constructor
      · intro given
        rcases given with ⟨d, ⟨m, across, _⟩, _⟩
        cases across.1
      · intro given
        rcases given with ⟨first, phrase, same, _⟩
        cases same
  | cons first later =>
      have laterInner : Lexeme.Inner later := fun lexeme member =>
        isInner lexeme (List.mem_cons_of_mem first member)
      simp only [Cursor.advance_along_cons, List.map_cons, List.cons.injEq]
      constructor
      · intro given
        rcases given with ⟨d, ⟨m, head, phrase, spans, _, tree⟩, ended⟩
        have across := Cursor.over_append.mpr ⟨m, head, spans.across⟩
        obtain ⟨same, _⟩ :=
          (Cursor.over_along_iff laterInner atEnd (inside phrase)).mp ⟨across, ended⟩
        exact ⟨first.token, phrase, ⟨rfl, same.symm⟩, spans.maximal, spans.shallow, spans.binds,
          tree⟩
      · intro given
        rcases given with ⟨_, phrase, ⟨_, same⟩, maximal, shallow, binds, tree⟩
        obtain ⟨across, ended⟩ :=
          (Cursor.over_along_iff laterInner atEnd (inside phrase)).mpr ⟨same.symm, rfl⟩
        obtain ⟨m, head, body⟩ := Cursor.over_append.mp across
        have ends : phrase.EndsAt table (Cursor.along [] finish).token := by
          rw [ended]
          exact Phrase.endsAt_endOfInput
        exact ⟨_, ⟨m, head, phrase, ⟨body, maximal, shallow, binds⟩, ends, tree⟩, ended⟩

/-- A text is parsed as a definition if, behind its first token, it has the tokens of the
prototype and then those of a phrase for the body. The first token is not looked at. -/
theorem parseDefinition_ok_iff (source : String) (table : Precedence) (f : Definition) :
    (parseDefinition source table).result = .ok f ↔
      ∃ (first : Token) (phrase : Phrase),
        Text.tokens source = first :: (f.prototype.tokens ++ phrase.tokens) ∧
        phrase.Maximal ∧ phrase.nesting ≤ 256 ∧ table.Binds phrase.tokens ∧
        phrase.tree table = f.body := by
  rw [parseDefinition, Parser.definition_eq]
  exact Parser.result_whole_definition_iff source table Parser.nestingLimit f

/-- By the grammar the tokens are a definition, and it is `f`: the keyword, the name, the
parameters and a body with the tree of `f` in which no more than 256 primaries are nested. -/
def Definition.Derived (table : Precedence) (tokens : List Token) (f : Definition) : Prop :=
  ∃ body : Phrase, tokens = .define :: (f.prototype.tokens ++ body.tokens) ∧ body.Maximal ∧
    body.nesting ≤ 256 ∧ body.tree table = f.body

/-- A text is parsed as a definition exactly if it becomes one by the grammar once the keyword is
put in place of its first token. So the definitions by the grammar are those of the texts parsed as
definitions that begin with the keyword, and the others lack nothing else. -/
theorem parseDefinition_eq_ok_iff_derived (source : String) (table : Precedence)
    (andPositive : 0 ≤ table.and)
    (orPositive : 0 ≤ table.or)
    (f : Definition) :
    ((parseDefinition source table).result = .ok f ↔
      ∃ first rest, Text.tokens source = first :: rest ∧ f.Derived table (.define :: rest)) ∧
    (f.Derived table (Text.tokens source) ↔
      (parseDefinition source table).result = .ok f ∧
        (Text.tokens source).head? = some .define) := by
  have accepted : (parseDefinition source table).result = .ok f ↔
      ∃ first rest, Text.tokens source = first :: rest ∧ f.Derived table (.define :: rest) := by
    rw [parseDefinition_ok_iff]
    constructor
    · rintro ⟨first, body, same, maximal, shallow, _, tree⟩
      exact ⟨first, _, same, body, rfl, maximal, shallow, tree⟩
    · rintro ⟨first, rest, same, body, shape, maximal, shallow, tree⟩
      have binds : table.Binds body.tokens := fun kind _ =>
        Precedence.of_nonneg andPositive orPositive kind
      have sameRest := (List.cons.inj shape).2
      exact ⟨first, body, by rw [same, sameRest], maximal, shallow, binds, tree⟩
  refine ⟨accepted, ?_⟩
  rw [accepted]
  constructor
  · rintro ⟨body, shape, derived⟩
    rw [shape]
    exact ⟨⟨.define, _, rfl, body, rfl, derived⟩, rfl⟩
  · rintro ⟨⟨first, rest, shape, derived⟩, head⟩
    rw [shape, List.head?_cons, Option.some.injEq] at head
    rw [shape, head]
    exact derived

theorem parses_definition_of_disjunction :
    let source := "def f(x, x) x \\/ y"
    let f : Definition := ⟨⟨"f", ["x", "x"]⟩, .binary .or (.var "x") (.var "y")⟩
    0 ≤ Precedence.standard.and ∧ 0 ≤ Precedence.standard.or ∧
      (parseDefinition source .standard).result = .ok f ∧
      f.Derived .standard (Text.tokens source) := by
  intro source f
  have andPositive : 0 ≤ Precedence.standard.and := by decide
  have orPositive : 0 ≤ Precedence.standard.or := by decide
  have parsed : (parseDefinition source .standard).result = .ok f := by decide +kernel
  have keyword : (Text.tokens source).head? = some .define := by decide +kernel
  have law := parseDefinition_eq_ok_iff_derived source .standard andPositive orPositive f
  exact ⟨andPositive, orPositive, parsed, law.2.mpr ⟨parsed, keyword⟩⟩

/-- A text without the keyword is parsed as a definition, but is none by the grammar. -/
theorem parses_definition_without_keyword :
    let source := "x f(y) y"
    let f : Definition := ⟨⟨"f", ["y"]⟩, .var "y"⟩
    (parseDefinition source .standard).result = .ok f ∧
      ¬ f.Derived .standard (Text.tokens source) := by
  intro source f
  have parsed : (parseDefinition source .standard).result = .ok f := by decide +kernel
  have noKeyword : (Text.tokens source).head? = some (.identifier "x") := by decide +kernel
  refine ⟨parsed, ?_⟩
  rintro ⟨body, shape, _⟩
  rw [shape] at noKeyword
  cases noKeyword

end FormulaReader
