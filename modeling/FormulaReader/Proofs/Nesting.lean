import FormulaReader.Proofs.Counting
import FormulaReader.Proofs.Room

/-!
The guard on nesting is exact: it changes nothing as long as no primary is entered in which too many
others are open, and stops the parser at the first one otherwise. Only nesting counts. A maximal
phrase that is nested within the limit never meets it, however long its chains and argument lists.
-/

namespace FormulaReader

/-! ## With and without the guard -/

/-- What the guard makes of the outcome `free` of a parser without it. -/
def Guards {α : Type} (limited : Outcome ParseError Cursor α) (free : Outcome ParseError Tally α) :
    Prop :=
  match free.state.entrances.find? fun e => 256 ≤ e.opened with
  | none => limited.result = free.result ∧ limited.state = free.state.cursor ∧
      limited.events = free.events
  | some e => e.opened = 256 ∧ limited.result = .error ⟨e.lexeme.start, .tooDeep 256⟩

theorem guards_of_followsAt {α : Type} {p : Counter α} {plain : Parser α} {table : Precedence}
    {feed : Feed}
    (follows : Counter.FollowsAt false 0 table p plain (.start feed table)) :
    Guards (plain.run (.ofFeed feed)) (p.run (.start feed table)) := by
  obtain ⟨entered, kept, _⟩ := follows rfl rfl
  have entrances : (p.run (.start feed table)).state.entrances = entered := kept.entrances
  have stop : (p.run (.start feed table)).state.entrances.find? (fun e => 256 ≤ e.opened) =
      Entrance.stop? entered := by
    rw [entrances]
    rfl
  rw [Guards, stop]
  cases found : Entrance.stop? entered with
  | none =>
      obtain ⟨result, cursor, events⟩ := kept.alike found
      exact ⟨result.symm, cursor.symm, events.symm⟩
  | some e => exact kept.stopped e found

/-! ## Connectives that end a chain -/

/-- The token is a connective with which no chain goes on. -/
def Precedence.Bars (table : Precedence) (t : Token) : Prop :=
  ∃ kind, t = .connective kind ∧ ¬ 0 ≤ table.of kind

namespace Parser

variable {α β : Type} {table other : Precedence} {c : Cursor}

/-- The parser has come to a connective with which no chain goes on, and has not met the limit. -/
def Barred (table : Precedence) (o : Outcome ParseError Cursor α) : Prop :=
  table.Bars o.state.token ∧ ¬ MeetsLimit o

/-- At a connective with which no chain goes on, the parser stays. -/
def Idles (table : Precedence) (p : Parser α) : Prop :=
  ∀ c, table.Bars c.token → Barred table (p.run c)

/-- Both end at one cursor, either well or with one error. -/
def Agree (o other : Outcome ParseError Cursor α) : Prop :=
  o.state = other.state ∧ ((∃ a b, o.result = .ok a ∧ other.result = .ok b) ∨
    ∃ e, o.result = .error e ∧ other.result = .error e)

/-- What `q` does `p` does too, if it is not barred before. The values may differ. -/
def AbidesAt (table : Precedence) (p q : Parser α) (c : Cursor) : Prop :=
  Barred table (p.run c) ∨ Agree (p.run c) (q.run c)

/-! ## Building blocks -/

theorem idles_pure (a : α) : Idles table (pure a) := by
  intro c bars
  refine ⟨bars, ?_⟩
  rintro ⟨position, met⟩
  cases met

theorem idles_fail {fault : Fault} (roomy : fault ≠ .tooDeep nestingLimit) :
    Idles table (fail fault : Parser α) := by
  intro c bars
  refine ⟨bars, ?_⟩
  rintro ⟨position, met⟩
  cases met
  exact roomy rfl

theorem Barred.andThen {o : Outcome ParseError Cursor α} {next : α → Parser β}
    (barred : Barred table o)
    (idle : ∀ a, Idles table (next a)) :
    Barred table (Activity.andThen o fun a => (next a).run) := by
  cases o with
  | mk result m events =>
      obtain ⟨bars, roomy⟩ := barred
      cases result with
      | error e =>
          refine ⟨bars, ?_⟩
          rintro ⟨position, met⟩
          exact roomy ⟨position, congrArg Except.error (Except.error.inj met)⟩
      | ok a => exact idle a m bars

theorem Idles.bind {p : Parser α} {next : α → Parser β}
    (first : Idles table p)
    (second : ∀ a, Idles table (next a)) :
    Idles table (p >>= next) := by
  intro c bars
  exact (first c bars).andThen second

theorem idles_token_bind {next : Token → Parser α}
    (idles : ∀ c, table.Bars c.token → Barred table ((next c.token).run c)) :
    Idles table (token >>= next) := by
  intro c bars
  rw [run_token_bind]
  exact idles c bars

theorem idles_expect {character : Char} {fault : Fault} (roomy : fault ≠ .tooDeep nestingLimit) :
    Idles table (expect (.symbol character) fault) := by
  apply idles_token_bind
  intro c bars
  have other : c.token ≠ .symbol character := by
    obtain ⟨kind, found, _⟩ := bars
    simp [found]
  rw [if_neg other]
  exact idles_fail roomy c bars

theorem idles_many {lead : Token → Option β} {item : β → Parser α}
    (closed : ∀ t, table.Bars t → lead t = none) :
    Idles table (many lead item) := by
  rw [many_eq]
  apply idles_token_bind
  intro c bars
  rw [closed c.token bars]
  exact idles_pure [] c bars

theorem AbidesAt.bind {p q : Parser α} {next further : α → Parser β}
    (first : AbidesAt table p q c)
    (idle : ∀ a, Idles table (next a))
    (second : ∀ a b m, p.Reads c a m → AbidesAt table (next a) (further b) m) :
    AbidesAt table (p >>= next) (q >>= further) c := by
  simp only [Reads] at second
  simp only [AbidesAt, run_bind, Activity.bind_apply]
  rcases first with barred | agree
  · exact .inl (barred.andThen idle)
  · cases shape : p.run c with
    | mk result m events =>
        cases otherShape : q.run c with
        | mk otherResult n otherEvents =>
            rw [shape, otherShape] at agree
            rw [shape] at second
            obtain ⟨rfl, ⟨a, b, rfl, rfl⟩ | ⟨e, rfl, rfl⟩⟩ := agree
            · exact second a b m ⟨rfl, rfl⟩
            · exact .inr ⟨rfl, .inr ⟨e, rfl, rfl⟩⟩

theorem agree_refl (o : Outcome ParseError Cursor α) : Agree o o := by
  refine ⟨rfl, ?_⟩
  cases shape : o.result with
  | ok a => exact .inl ⟨a, a, rfl, rfl⟩
  | error e => exact .inr ⟨e, rfl, rfl⟩

theorem abidesAt_pure (a b : α) : AbidesAt table (pure a) (pure b) c :=
  .inr ⟨rfl, .inl ⟨a, b, rfl, rfl⟩⟩

theorem abidesAt_refl (p : Parser α) (c : Cursor) : AbidesAt table p p c :=
  .inr (agree_refl _)

theorem abidesAt_bind_right (p : Parser α) {next further : α → Parser β}
    (second : ∀ a m, AbidesAt table (next a) (further a) m) :
    AbidesAt table (p >>= next) (p >>= further) c := by
  simp only [AbidesAt, run_bind, Activity.bind_apply]
  cases p.run c with
  | mk result m events =>
      cases result with
      | error e => exact .inr (agree_refl _)
      | ok a => exact second a m

theorem abidesAt_many {lead leads : Token → Option β} {item items : β → Parser α}
    (closed : ∀ t, table.Bars t → lead t = none)
    (same : ∀ t, ¬ table.Bars t → lead t = leads t)
    (inside : ∀ b c, AbidesAt table (item b) (items b) c)
    (c : Cursor) :
    AbidesAt table (many lead item) (many leads items) c := by
  induction size : c.size using Nat.strongRecOn generalizing c with
  | ind n ih =>
      by_cases bars : table.Bars c.token
      · exact .inl (idles_many closed c bars)
      · rw [many_eq lead item, many_eq leads items, AbidesAt, run_token_bind, run_token_bind,
          ← same c.token bars]
        cases lead c.token with
        | none => exact abidesAt_refl _ _
        | some b =>
            by_cases atEnd : c.token = .endOfInput
            · simp only [atEnd, if_true]
              exact abidesAt_refl _ _
            · simp only [atEnd, if_false]
              have first : AbidesAt table (item b).afterNext (items b).afterNext c :=
                abidesAt_bind_right advance fun _ m => inside b m
              have idle : ∀ a, Idles table ((a :: ·) <$> many lead item) := by
                intro a
                rw [map_eq_pure_bind]
                exact (idles_many closed).bind fun _ => idles_pure _
              apply first.bind idle
              intro a a' m read
              have shorter : m.size < n := by
                have left := size_afterNext_lt (item b) atEnd
                rw [read.2, size] at left
                exact left
              rw [map_eq_pure_bind, map_eq_pure_bind]
              apply (ih m.size shorter m rfl).bind fun _ => idles_pure _
              intro later later' k _
              exact abidesAt_pure _ _

/-! ## The rules of the grammar -/

section Rules

variable {inner outer : Parser Expression}

theorem comma_of_bars {t : Token} (bars : table.Bars t) : comma t = none := by
  obtain ⟨kind, rfl, _⟩ := bars
  rfl

theorem abidesAt_group (inside : ∀ c, AbidesAt table inner outer c) (c : Cursor) :
    AbidesAt table (group inner) (group outer) c := by
  apply abidesAt_bind_right
  intro _ m
  apply (inside m).bind
  · intro e
    exact (idles_expect (by simp)).bind fun _ => idles_pure e
  · intro e f k _
    apply abidesAt_bind_right
    intro _ n
    exact abidesAt_pure e f

theorem abidesAt_arguments (inside : ∀ c, AbidesAt table inner outer c) (c : Cursor) :
    AbidesAt table (arguments inner) (arguments outer) c := by
  apply abidesAt_bind_right
  intro t m
  by_cases closes : t = .symbol ')'
  · rw [if_pos closes, if_pos closes]
    exact abidesAt_refl _ m
  · rw [if_neg closes, if_neg closes]
    have closing : ∀ es : List Expression, Idles table
        (expect (.symbol ')') .unclosedArguments >>= fun _ => pure es) := by
      intro es
      exact (idles_expect (by simp)).bind fun _ => idles_pure es
    apply (inside m).bind
    · intro first
      exact (idles_many fun _ => comma_of_bars).bind fun further => closing (first :: further)
    · intro first first' k _
      apply (abidesAt_many (fun _ => comma_of_bars) (fun _ _ => rfl) (fun _ => inside) k).bind
      · intro further
        exact closing (first :: further)
      · intro further further' n _
        apply abidesAt_bind_right
        intro _ l
        exact abidesAt_pure _ _

theorem abidesAt_application (inside : ∀ c, AbidesAt table inner outer c) (c : Cursor) :
    AbidesAt table (application inner) (application outer) c := by
  apply abidesAt_bind_right
  intro t m
  cases t with
  | identifier x =>
      apply abidesAt_bind_right
      intro _ k
      apply abidesAt_bind_right
      intro u n
      by_cases opens : u = .symbol '('
      · rw [if_pos opens, if_pos opens]
        apply abidesAt_bind_right
        intro _ l
        apply (abidesAt_arguments inside l).bind fun _ => idles_pure _
        intro es fs j _
        exact abidesAt_pure _ _
      · rw [if_neg opens, if_neg opens]
        exact abidesAt_refl _ n
  | _ => exact abidesAt_refl _ m

theorem abidesAt_quantification (inside : ∀ c, AbidesAt table inner outer c) (c : Cursor) :
    AbidesAt table (quantification inner) (quantification outer) c := by
  apply abidesAt_bind_right
  intro t m
  cases t with
  | quantifier kind =>
      apply abidesAt_bind_right
      intro _ k
      apply abidesAt_bind_right
      intro x n
      apply abidesAt_bind_right
      intro _ l
      apply (inside l).bind fun _ => idles_pure _
      intro body body' j _
      exact abidesAt_pure _ _
  | _ => exact abidesAt_refl _ m

theorem abidesAt_operand (inside : ∀ c, AbidesAt table inner outer c) (c : Cursor) :
    AbidesAt table (operand inner) (operand outer) c := by
  apply abidesAt_bind_right
  intro t m
  split
  · exact abidesAt_quantification inside m
  · exact abidesAt_application inside m
  · exact abidesAt_group inside m
  · exact abidesAt_refl _ m

theorem abidesAt_chain (positive : ∀ kind, 0 ≤ other.of kind)
    (inside : ∀ c, AbidesAt table inner outer c)
    (c : Cursor) :
    AbidesAt table (chain table inner) (chain other outer) c := by
  have closed : ∀ t, table.Bars t → connectiveFrom table 0 t = none := by
    rintro t ⟨kind, rfl, barred⟩
    simp only [connectiveFrom, if_pos (Int32.not_le.mp barred)]
  have same : ∀ t, ¬ table.Bars t → connectiveFrom table 0 t = connectiveFrom other 0 t := by
    intro t goesOn
    cases t with
    | connective kind =>
        have binds : 0 ≤ table.of kind := by
          by_contra barred
          exact goesOn ⟨kind, rfl, barred⟩
        simp only [connectiveFrom, if_neg (Int32.not_lt.mpr binds),
          if_neg (Int32.not_lt.mpr (positive kind))]
    | _ => rfl
  -- The two tables part only at a connective with which one of the chains does not go on. There
  -- that chain is over, and what is left to be done idles.
  apply (inside c).bind
  · intro left
    exact (idles_many closed).bind fun _ => idles_pure _
  · intro left left' m _
    have links : AbidesAt table (links table 0 inner) (links other 0 outer) m := by
      apply abidesAt_many closed same
      intro kind k
      apply (inside k).bind fun _ => idles_pure _
      intro e f n _
      exact abidesAt_pure _ _
    apply links.bind fun _ => idles_pure _
    intro further further' n _
    exact abidesAt_pure _ _

theorem abidesAt_primaryWithin (positive : ∀ kind, 0 ≤ other.of kind) (room : Nat) (c : Cursor) :
    AbidesAt table (primaryWithin table room) (primaryWithin other room) c := by
  induction room generalizing c with
  | zero => exact abidesAt_refl _ c
  | succ room ih => exact abidesAt_operand (abidesAt_chain positive ih) c

theorem abidesAt_definition (positive : ∀ kind, 0 ≤ other.of kind) (c : Cursor) :
    AbidesAt table (definition table) (definition other) c := by
  apply abidesAt_bind_right
  intro _ m
  apply abidesAt_bind_right
  intro head k
  apply (abidesAt_chain positive (abidesAt_primaryWithin positive nestingLimit) k).bind
  · intro body c bars
    refine ⟨bars, ?_⟩
    rintro ⟨position, met⟩
    cases met
  · intro body body' n _
    exact abidesAt_bind_right _ fun _ _ => abidesAt_pure _ _

theorem abidesAt_whole {p q : Parser α} (inside : ∀ c, AbidesAt table p q c) (c : Cursor) :
    AbidesAt table (whole p) (whole q) c := by
  have later : AbidesAt table p.afterNext q.afterNext c :=
    abidesAt_bind_right advance fun _ m => inside m
  apply later.bind
  · intro a
    apply idles_token_bind
    intro m bars
    split
    · exact idles_pure a m bars
    · exact idles_fail (by simp) m bars
  · intro a b m _
    apply abidesAt_bind_right
    intro t k
    cases t with
    | endOfInput => exact abidesAt_pure a b
    | _ => exact abidesAt_refl _ k

/-- Connectives with which no chain goes on make no parser meet the limit. -/
theorem AbidesAt.not_meetsLimit {p q : Parser α} (abides : AbidesAt table p q c)
    (roomy : ¬ MeetsLimit (q.run c)) :
    ¬ MeetsLimit (p.run c) := by
  rcases abides with barred | ⟨_, ⟨a, b, read, _⟩ | ⟨e, failed, same⟩⟩
  · exact barred.2
  · rintro ⟨position, met⟩
    cases read.symm.trans met
  · rintro ⟨position, met⟩
    cases failed.symm.trans met
    exact roomy ⟨position, same⟩

end Rules

end Parser

/-! ## Whole texts -/

/-- Under any table, phrases that are nested within the limit never meet it, whether they are the
whole text or the body of a definition. -/
theorem not_meetsLimit_of_phrase (source : String) (table : Precedence) {phrase : Phrase}
    (maximal : phrase.Maximal)
    (shallow : phrase.nesting ≤ 256) :
    (Text.tokens source = phrase.tokens → ¬ Parser.MeetsLimit (parseExpression source table)) ∧
      ∀ (first : Token) (head : Prototype),
        Text.tokens source = first :: (head.tokens ++ phrase.tokens) →
        ¬ Parser.MeetsLimit (parseDefinition source table) := by
  -- With the standard table chains go on with every connective, so the phrase is read as a whole,
  -- and any other table can only end it sooner.
  have positive : ∀ kind, 0 ≤ Precedence.standard.of kind :=
    Precedence.of_nonneg (by decide) (by decide)
  have binds : Precedence.standard.Binds phrase.tokens := fun kind _ => positive kind
  constructor
  · intro same
    have chains : ∀ c, Parser.AbidesAt table (Parser.expression table)
        (Parser.expression .standard) c :=
      Parser.abidesAt_chain positive (Parser.abidesAt_primaryWithin positive Parser.nestingLimit)
    apply (Parser.abidesAt_whole chains _).not_meetsLimit
    rintro ⟨position, met⟩
    rcases parseExpression_of_phrase same.symm maximal binds with ⟨_, read⟩ | ⟨deep, _⟩
    · cases read.symm.trans met
    · omega
  · intro first head same
    apply (Parser.abidesAt_whole (Parser.abidesAt_definition positive) _).not_meetsLimit
    rintro ⟨position, met⟩
    rcases parseDefinition_of_phrase same maximal binds with ⟨_, read⟩ | ⟨deep, _⟩
    · cases read.symm.trans met
    · omega

/-- The guard on nesting is exact. The parser without it is the only one that follows the recursion
of the grammar and opens any number of primaries. The parser with it does the same in all respects,
unless the one without enters a primary in which 256 others are open; then it fails there.
Chains, argument lists and parameter lists never make it fail, of whatever length they are: under
any table a text is read to the end, or at least not found too deep, if no more than 256 of its
primaries are nested in one another. -/
theorem parse_eq_unguarded (source : String) (table : Precedence) :
    (∀ p : Counter Expression,
      p = .enter false (Rules.operand (Rules.chain .table p)) ↔ p = .primary false) ∧
    Guards (parseExpression source table) ((Rules.whole (Counter.expression false)).run
      (.start (source.toList.map some) table)) ∧
    Guards (parseDefinition source table) ((Rules.whole (Counter.definition false)).run
      (.start (source.toList.map some) table)) ∧
    ∀ phrase : Phrase, phrase.Maximal → phrase.nesting ≤ 256 →
      (Text.tokens source = phrase.tokens → ¬ Parser.MeetsLimit (parseExpression source table)) ∧
      ∀ (first : Token) (head : Prototype),
        Text.tokens source = first :: (head.tokens ++ phrase.tokens) →
        ¬ Parser.MeetsLimit (parseDefinition source table) := by
  refine ⟨fun p => Counter.eq_primary_iff, ?_, ?_, ?_⟩
  · apply guards_of_followsAt
    rw [← Parser.rules_whole]
    exact (Counter.followsAt_congruence false 0 table).whole (Counter.followsAt_expression false)
  · apply guards_of_followsAt
    rw [← Parser.rules_whole]
    exact (Counter.followsAt_congruence false 0 table).whole (Counter.followsAt_definition false)
  · intro phrase maximal shallow
    exact not_meetsLimit_of_phrase source table maximal shallow

end FormulaReader
