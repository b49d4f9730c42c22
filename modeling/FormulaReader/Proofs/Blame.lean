import FormulaReader.Proofs.Expectation
import FormulaReader.Proofs.Layout
import FormulaReader.Proofs.Room
import FormulaReader.Proofs.Segments

/-!
Blame: an error is raised at the first token with which a text is no longer the beginning of a
sentence. A parser that fails has seen nothing behind that token. If a sentence began with the same
tokens, the parser would fail on it as well, with any room for nesting; but with enough room it
reads all sentences.
-/

namespace FormulaReader

/-! ## Reading over the same tokens -/

namespace Cursor

variable {c d other m : Cursor} {tokens : List Token} {lexemes : List Lexeme} {finish : Lexeme}

theorem Over.skip_eq (across : c.Over tokens d) : c.skip tokens.length = d := by
  induction tokens generalizing c with
  | nil => exact across
  | cons token later ih => exact ih across.2

theorem Over.token_skip_eq {i : Nat}
    (across : c.Over tokens d)
    (alike : other.Over tokens m)
    (inside : i < tokens.length) :
    (c.skip i).token = (other.skip i).token := by
  induction tokens generalizing c other i with
  | nil => cases inside
  | cons token later ih =>
      cases i with
      | zero => exact across.1.trans alike.1.symm
      | succ i =>
          have further := ih across.2 alike.2 (Nat.lt_of_succ_lt_succ inside)
          exact further

theorem exists_over_along {t : Token}
    (begins : tokens ++ [t] <+: lexemes.map Lexeme.token ++ [finish.token]) :
    ∃ m : Cursor, (along lexemes finish).Over tokens m ∧ m.token = t := by
  induction tokens generalizing lexemes with
  | nil =>
      refine ⟨along lexemes finish, rfl, ?_⟩
      cases lexemes with
      | nil => exact (List.cons_prefix_cons.mp begins).1.symm
      | cons first later => exact (List.cons_prefix_cons.mp begins).1.symm
  | cons token tokens ih =>
      cases lexemes with
      | nil =>
          have shorter := (List.cons_prefix_cons.mp begins).2.length_le
          simp at shorter
      | cons first later =>
          obtain ⟨same, further⟩ := List.cons_prefix_cons.mp begins
          obtain ⟨m, across, reached⟩ := ih further
          refine ⟨m, ⟨same.symm, ?_⟩, reached⟩
          rw [advance_along_cons]
          exact across

theorem current_cons_ahead (lexemes : List Lexeme) (finish : Lexeme) :
    (along lexemes finish).current :: (along lexemes finish).ahead = lexemes ++ [finish] := by
  cases lexemes <;> rfl

theorem along_inj {others : List Lexeme} (same : along lexemes finish = along others finish) :
    lexemes = others := by
  have sameList := current_cons_ahead lexemes finish
  rw [same, current_cons_ahead] at sameList
  exact (List.append_cancel_right sameList).symm

end Cursor

/-! ## Justified errors -/

/-- The fault is the right thing to say about `found` behind the tokens `before`, if the sentences
are those of `L`. -/
structure Fault.Justified (fault : Fault) (L : Language Token) (before : List Token)
    (found : Token) : Prop where
  /-- Up to here the text begins a sentence. -/
  viable : Viable L before
  /-- No sentence goes on with the token at fault, unless the text is only nested too deep. -/
  offends : (∀ limit, fault ≠ .tooDeep limit) → found ≠ .endOfInput →
    ¬ Viable L (before ++ [found])
  /-- The same where the text ends. -/
  unfinished : (∀ limit, fault ≠ .tooDeep limit) → found = .endOfInput → before ∉ L
  /-- All that the fault expects is possible. -/
  expected : ∀ t, fault.expects t = true → Viable L (before ++ [t])
  /-- If a token is quoted, it is the one at fault. -/
  quotes : fault.foundAt found = fault

/-- The error is raised at a lexeme of the text, the only one that starts at its position, and what
it says there is right. -/
def ParseError.Justified (e : ParseError) (L : Language Token) (source : String) : Prop :=
  ∃ before found later,
    (Scanner.start (source.toList.map some)).lexemes = before ++ found :: later ∧
    found.start = e.position ∧ (∀ other ∈ before ++ later, other.start ≠ e.position) ∧
    e.fault.Justified L (before.map Lexeme.token) found.token

namespace Parser

variable {α : Type} {L : Language Token} {p : Nat → Parser α} {c start : Cursor} {e : ParseError}
  {tokens sentence : List Token}

theorem fails_whole {q : Parser α} (failed : ((whole q).run start).result = .error e) :
    (q.run start.advance).result = .error e ∨
      ∃ a d, q.Reads start.advance a d ∧ d.token ≠ .endOfInput ∧
        e = d.raise (.unexpectedRest d.token) := by
  rw [result_whole] at failed
  cases result : (q.run start.advance).result with
  | error earlier =>
      rw [result] at failed
      exact .inl failed
  | ok a =>
      rw [result, Except.bind] at failed
      by_cases atEnd : (q.run start.advance).state.token = .endOfInput
      · rw [if_pos atEnd] at failed
        cases failed
      · rw [if_neg atEnd] at failed
        cases failed
        exact .inr ⟨a, _, ⟨result, rfl⟩, atEnd, rfl⟩

/-! ## Sentences as inputs -/

theorem exists_over_inputOf {t : Token}
    (begins : tokens ++ [t] <+: sentence ++ [.endOfInput]) :
    ∃ m : Cursor, (inputOf sentence).Over tokens m ∧ m.token = t := by
  have spelled : (sentence.map fun t => Lexeme.mk t .first []).map Lexeme.token = sentence := by
    rw [List.map_map]
    exact List.map_id sentence
  apply Cursor.exists_over_along
  rw [spelled]
  exact begins

/-- From `c` on, the parser keeps to what may follow by `L`, with any room for nesting, and with
enough room it reads every sentence of `L` that is the whole input. -/
structure ReadsLanguage (L : Language Token) (p : Nat → Parser α) (c : Cursor) : Prop where
  isLocal : ∀ room, (p room).LocalAt c
  extendsAt : ∀ {room more}, room ≤ more → ExtendsAt (p more) (p room) c
  promises : ∀ room, PromisesAt L (p room) c
  viable : ∀ {room a d}, (p room).Reads c a d → ∃ tokens, c.Over tokens d ∧ Viable L tokens
  complete : ∀ {sentence}, sentence ∈ L → ∃ room, ∀ more, room ≤ more →
    ∃ a d, (p more).Reads (inputOf sentence) a d ∧ d.token = .endOfInput
  inner : ∀ {sentence}, sentence ∈ L → .endOfInput ∉ sentence

namespace ReadsLanguage

/-- Where a parser that is not short of room stops, no sentence goes on. -/
theorem not_prefix (reads : ReadsLanguage L p c)
    (across : c.Over tokens ((p nestingLimit).run c).state)
    (count : tokens.length = Event.readCount ((p nestingLimit).run c).events)
    (roomy : ¬ MeetsLimit ((p nestingLimit).run c))
    (stops : (∃ e, ((p nestingLimit).run c).result = .error e) ∨
      ((p nestingLimit).run c).state.token ≠ .endOfInput)
    (member : sentence ∈ L) :
    ¬ tokens ++ [((p nestingLimit).run c).state.token] <+: sentence ++ [.endOfInput] := by
  intro begins
  obtain ⟨room, complete⟩ := reads.complete member
  obtain ⟨a, d, read, atEnd⟩ := complete (max nestingLimit room) (Nat.le_max_right _ _)
  have same : (p (max nestingLimit room)).run c = (p nestingLimit).run c := by
    rcases reads.extendsAt (Nat.le_max_left nestingLimit room) with met | alike
    · exact absurd met roomy
    · exact alike
  have steady := (reads.isLocal (max nestingLimit room)).steady
  obtain ⟨m, alike, stopped⟩ := exists_over_inputOf begins
  -- The sentence has the same tokens up to the one at which the parser stopped, so it stops there
  -- too, and in the same way.
  have stands : StandsIn ((p (max nestingLimit room)).run c) c (inputOf sentence) := by
    rw [same]
    constructor
    · intro i below
      rw [← count] at below
      exact across.token_skip_eq alike below
    · rw [← count, across.skip_eq, alike.skip_eq]
      exact .inl stopped.symm
  rcases stops with ⟨e, failed⟩ | notEnd
  · have mirrored := (steady _ stands).result
    rw [same, failed, read.1] at mirrored
    cases mirrored
  · have reached := steady.state_eq stands
    rw [same, ← count, alike.skip_eq, read.2] at reached
    rw [← stopped, ← reached] at notEnd
    exact notEnd atEnd

/-- Wherever the text as a whole is at fault, that is where the parser stopped: either it failed
there, or the text goes on. -/
theorem exists_stop (reads : ReadsLanguage L p start.advance)
    (failed : ((whole (p nestingLimit)).run start).result = .error e) :
    ∃ d tokens, ((p nestingLimit).run start.advance).state = d ∧ start.advance.Over tokens d ∧
      e = d.raise e.fault ∧ e.fault.Fits (L.leftQuotient tokens) ∧
      (((p nestingLimit).run start.advance).result = .error e ∨
        d.token ≠ .endOfInput ∧ ∃ a, ((p nestingLimit).run start.advance).result = .ok a) := by
  rcases fails_whole failed with inside | ⟨a, d, read, notEnd, rfl⟩
  · obtain ⟨tokens, across, fits⟩ := reads.promises nestingLimit e inside
    have raised := (reads.isLocal nestingLimit).steady.error_eq inside
    exact ⟨_, tokens, rfl, across, raised, fits, .inl inside⟩
  · obtain ⟨tokens, across, viable⟩ := reads.viable read
    refine ⟨d, tokens, read.2, across, rfl, ⟨?_, ?_⟩, .inr ⟨notEnd, a, read.1⟩⟩
    · apply viable_leftQuotient_iff.mpr
      rw [List.append_nil]
      exact viable
    · intro t named
      cases named

/-- The tokens that were read over to where the parser stopped are as many as it has read. -/
theorem exists_front (reads : ReadsLanguage L p c) {lexemes : List Lexeme} {finish : Lexeme}
    (place : c = Cursor.along lexemes finish)
    (atEnd : finish.token = .endOfInput)
    (across : c.Over tokens ((p nestingLimit).run c).state)
    (viable : Viable L tokens) :
    ∃ front rest, lexemes = front ++ rest ∧ tokens = front.map Lexeme.token ∧
      ((p nestingLimit).run c).state = Cursor.along rest finish ∧
      tokens.length = Event.readCount ((p nestingLimit).run c).events := by
  have inside : .endOfInput ∉ tokens := by
    obtain ⟨rest, sentence⟩ := viable
    intro member
    exact reads.inner sentence (List.mem_append_left rest member)
  have heedful := (reads.isLocal nestingLimit).heedful
  subst place
  obtain ⟨segment, left, split, length, stopped⟩ := exists_segment heedful atEnd
  obtain ⟨front, rest, shape, rfl, reached⟩ := Cursor.over_along atEnd inside across
  have sameRest : left = rest := Cursor.along_inj (stopped.symm.trans reached)
  subst sameRest
  have sameFront : segment = front := List.append_cancel_right (split.symm.trans shape)
  subst sameFront
  exact ⟨segment, left, split, rfl, stopped, by rw [List.length_map, length]⟩

theorem exists_justified (reads : ReadsLanguage L p start.advance)
    {lexemes : List Lexeme} {finish : Lexeme}
    (place : start.advance = Cursor.along lexemes finish)
    (atEnd : finish.token = .endOfInput)
    (failed : ((whole (p nestingLimit)).run start).result = .error e) :
    ∃ front rest, lexemes = front ++ rest ∧
      e.position = (Cursor.along rest finish).position ∧
      e.fault.Justified L (front.map Lexeme.token) (Cursor.along rest finish).token := by
  obtain ⟨d, tokens, rfl, across, raised, fits, stops⟩ := reads.exists_stop failed
  have viable : Viable L tokens := by
    have here := viable_leftQuotient_iff.mp fits.viable
    rw [List.append_nil] at here
    exact here
  obtain ⟨front, rest, split, spelled, reached, count⟩ :=
    reads.exists_front place atEnd across viable
  have noSentence : (∀ limit, e.fault ≠ .tooDeep limit) → ∀ sentence ∈ L,
      ¬ tokens ++ [(Cursor.along rest finish).token] <+: sentence ++ [.endOfInput] := by
    intro notDeep sentence member
    have roomy : ¬ MeetsLimit ((p nestingLimit).run start.advance) := by
      rintro ⟨position, met⟩
      rcases stops with inside | ⟨_, a, read⟩
      · rw [met] at inside
        cases inside
        exact notDeep nestingLimit rfl
      · rw [met] at read
        cases read
    have stopped : (∃ e, ((p nestingLimit).run start.advance).result = .error e) ∨
        ((p nestingLimit).run start.advance).state.token ≠ .endOfInput := by
      rcases stops with inside | ⟨notEnd, _⟩
      · exact .inl ⟨e, inside⟩
      · exact .inr notEnd
    rw [← reached]
    exact reads.not_prefix across count roomy stopped member
  rw [reached] at raised
  refine ⟨front, rest, split, congrArg ParseError.position raised, ?_⟩
  rw [← spelled]
  constructor
  · exact viable
  · rintro notDeep _ ⟨later, member⟩
    apply noSentence notDeep _ member
    rw [List.append_assoc _ later]
    exact List.prefix_append _ _
  · intro notDeep ended member
    apply noSentence notDeep _ member
    rw [ended]
  · intro t named
    exact viable_leftQuotient_iff.mp (fits.expected t named)
  · exact (congrArg ParseError.fault raised).symm

end ReadsLanguage

/-! ## Expressions and definitions -/

/-- A phrase that the end of the input follows is read, if there is room for its nesting. -/
theorem reads_chainWithin_of_over {table : Precedence} {room : Nat} {phrase : Phrase} {d : Cursor}
    (positive : ∀ kind, 0 ≤ table.of kind)
    (maximal : phrase.Maximal)
    (shallow : phrase.nesting ≤ room)
    (across : c.Over phrase.tokens d)
    (atEnd : d.token = .endOfInput) :
    (chain table (primaryWithin table room)).Reads c (phrase.tree table) d := by
  have binds : table.Binds phrase.tokens := fun kind _ => positive kind
  have ends : phrase.EndsAt table d.token := by
    rw [atEnd]
    exact Phrase.endsAt_endOfInput
  exact (recognisesPhrases_chainWithin table room _ _ _).mpr
    ⟨phrase, ⟨across, maximal, shallow, binds⟩, ends, rfl⟩

theorem readsLanguage_expressions {table : Precedence} (positive : ∀ kind, 0 ≤ table.of kind)
    (c : Cursor) :
    ReadsLanguage Sentence.expressions (fun room => chain table (primaryWithin table room)) c := by
  constructor
  · intro room
    exact localAt_chainWithin table room c
  · intro room more enough
    exact extendsAt_chain table (extendsAt_primaryWithin table enough) c
  · intro room
    apply promisesPhrases_chainWithin
    intro phrase
    exact Viable.of_mem ⟨phrase, rfl⟩
  · intro room e d read
    obtain ⟨phrase, spans, _⟩ := (recognisesPhrases_chainWithin table room _ _ _).mp read
    exact ⟨phrase.tokens, spans.across, Viable.of_mem ⟨phrase, rfl⟩⟩
  · rintro _ ⟨given, rfl⟩
    obtain ⟨phrase, maximal, same⟩ := given.exists_maximal_tokens_eq
    rw [← same]
    refine ⟨phrase.nesting, fun more enough => ?_⟩
    obtain ⟨d, across, atEnd⟩ := exists_over_inputOf (List.prefix_refl (phrase.tokens ++ _))
    have read := reads_chainWithin_of_over positive maximal enough across atEnd
    exact ⟨_, d, read, atEnd⟩
  · exact Sentence.endOfInput_not_mem_expressions

theorem readsLanguage_definitions {table : Precedence} (positive : ∀ kind, 0 ≤ table.of kind)
    {c : Cursor}
    (keyword : c.token = .define) :
    ReadsLanguage Sentence.definitions (definitionWithin table) c := by
  constructor
  · intro room
    exact localAt_definitionWithin table room (by simp [keyword])
  · intro room more enough
    exact extendsAt_definitionWithin table enough c
  · intro room
    exact promisesAt_definitionWithin table room keyword
  · intro room f d read
    obtain ⟨m, head, body⟩ := reads_definitionWithin_iff.mp read
    obtain ⟨phrase, spans, _⟩ := (recognisesPhrases_chainWithin table room _ _ _).mp body
    refine ⟨.define :: (f.prototype.tokens ++ phrase.tokens), ⟨keyword, ?_⟩, ?_⟩
    · exact Cursor.over_append.mpr ⟨m, head, spans.across⟩
    · exact Viable.of_mem ⟨f.prototype, phrase, rfl⟩
  · rintro _ ⟨head, given, rfl⟩
    obtain ⟨phrase, maximal, same⟩ := given.exists_maximal_tokens_eq
    rw [← same]
    refine ⟨phrase.nesting, fun more enough => ?_⟩
    obtain ⟨d, ⟨_, across⟩, atEnd⟩ :=
      exists_over_inputOf (List.prefix_refl (.define :: (head.tokens ++ phrase.tokens) ++ _))
    obtain ⟨m, inHead, inBody⟩ := Cursor.over_append.mp across
    have read := reads_chainWithin_of_over positive maximal enough inBody atEnd
    exact ⟨⟨head, phrase.tree table⟩, d, reads_definitionWithin_iff.mpr ⟨m, inHead, read⟩, atEnd⟩
  · exact Sentence.endOfInput_not_mem_definitions

/-! ## Whole texts -/

theorem ReadsLanguage.justified {source : String}
    (reads : ReadsLanguage L p (Cursor.ofFeed (source.toList.map some)).advance)
    (failed : ((whole (p nestingLimit)).run
      (Cursor.ofFeed (source.toList.map some))).result = .error e) :
    e.Justified L source := by
  obtain ⟨lexemes, finish, shape, _, atEnd, place⟩ :=
    Cursor.advance_ofFeed (source.toList.map some)
  obtain ⟨front, rest, rfl, position, justified⟩ := reads.exists_justified place atEnd failed
  have split : (Scanner.start (source.toList.map some)).lexemes =
      front ++ (Cursor.along rest finish).current :: (Cursor.along rest finish).ahead := by
    rw [shape, Cursor.current_cons_ahead, List.append_assoc]
  refine ⟨front, _, _, split, position.symm, ?_, justified⟩
  have ordered := Scanner.pairwise_lexemes (source.toList.map some)
  rw [split, List.pairwise_append, List.pairwise_cons] at ordered
  obtain ⟨_, ⟨behind, _⟩, across⟩ := ordered
  rw [position]
  intro other member
  rcases List.mem_append.mp member with inFront | inRest
  · exact (across other inFront _ List.mem_cons_self).ne
  · exact (behind other inRest).ne.symm

end Parser

/-- Every error is justified: up to the lexeme at which it is raised the text begins a sentence,
with that lexeme it does not, and whatever is expected there can really follow. Only a text that is
nested too deep may be a sentence all the same. That a definition begins with the keyword is not
checked by the parser, so it has to be given. -/
theorem errors_justified (source : String) (table : Precedence)
    (andPositive : 0 ≤ table.and)
    (orPositive : 0 ≤ table.or) :
    (∀ e, (parseExpression source table).result = .error e →
      e.Justified Sentence.expressions source) ∧
    (∀ e, (Text.tokens source).head? = some .define →
      (parseDefinition source table).result = .error e →
      e.Justified Sentence.definitions source) := by
  have positive := Precedence.of_nonneg andPositive orPositive
  constructor
  · intro e failed
    exact (Parser.readsLanguage_expressions positive _).justified failed
  · intro e keyword failed
    obtain ⟨lexemes, finish, spelled, _, _, start⟩ := Text.advance_ofFeed source
    have first : (Cursor.ofFeed (source.toList.map some)).advance.token = .define := by
      rw [spelled] at keyword
      rw [start]
      cases lexemes with
      | nil => cases keyword
      | cons lexeme later => exact Option.some.inj keyword
    exact (Parser.readsLanguage_definitions positive first).justified failed

theorem justifies_unclosed_group_and_missing_parameter :
    let unclosed : ParseError := ⟨⟨1, 14⟩, .unclosedGroup⟩
    let missing : ParseError := ⟨⟨1, 9⟩, .expectedParameter⟩
    0 ≤ Precedence.standard.and ∧ 0 ≤ Precedence.standard.or ∧
      (parseExpression "forall x, (a b" .standard).result = .error unclosed ∧
      unclosed.Justified Sentence.expressions "forall x, (a b" ∧
      (Text.tokens "def f(x,) y").head? = some .define ∧
      (parseDefinition "def f(x,) y" .standard).result = .error missing ∧
      missing.Justified Sentence.definitions "def f(x,) y" := by
  intro unclosed missing
  have andPositive : 0 ≤ Precedence.standard.and := by decide
  have orPositive : 0 ≤ Precedence.standard.or := by decide
  have failed : (parseExpression "forall x, (a b" .standard).result = .error unclosed := by
    decide +kernel
  have keyword : (Text.tokens "def f(x,) y").head? = some .define := by decide +kernel
  have alsoFailed : (parseDefinition "def f(x,) y" .standard).result = .error missing := by
    decide +kernel
  exact ⟨andPositive, orPositive, failed,
    (errors_justified _ .standard andPositive orPositive).1 unclosed failed, keyword, alsoFailed,
    (errors_justified _ .standard andPositive orPositive).2 missing keyword alsoFailed⟩

end FormulaReader
