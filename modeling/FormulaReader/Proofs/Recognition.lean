import FormulaReader.Proofs.Input
import FormulaReader.Proofs.Phrase

/-!
Recognition: the parser of expressions reads exactly the maximal phrases whose nesting is within
the limit and whose connectives all have a precedence of at least zero, and returns their trees. A
phrase ends where the next token is neither such a connective nor a parenthesis after a name.
-/

namespace FormulaReader

variable {table : Precedence} {room : Nat}

/-! ## Where a phrase ends -/

/-- All connectives among the tokens can continue a chain. -/
def Precedence.Binds (table : Precedence) (tokens : List Token) : Prop :=
  ∀ kind, .connective kind ∈ tokens → 0 ≤ table.of kind

/-- The token after `tokens` does not turn a name at their end into a call. -/
def Token.CallsNothing (tokens : List Token) (next : Token) : Prop :=
  next = .symbol '(' → ∀ name, tokens.getLast? ≠ some (.identifier name)

/-- No chain goes on with the token. -/
def Precedence.Stops (table : Precedence) (next : Token) : Prop :=
  ∀ kind, next = .connective kind → ¬ 0 ≤ table.of kind

theorem Token.callsNothing_append_closing (tokens : List Token) (next : Token) :
    CallsNothing (tokens ++ [.symbol ')']) next := by
  intro _ name
  simp

theorem Token.callsNothing_append {first second : List Token} {next : Token}
    (nonempty : second ≠ []) :
    CallsNothing (first ++ second) next ↔ CallsNothing second next := by
  have sameEnd : (first ++ second).getLast? = second.getLast? := by
    rw [List.getLast?_append, List.getLast?_eq_some_getLast nonempty, Option.some_or]
  rw [CallsNothing, CallsNothing, sameEnd]

theorem Precedence.binds_cons {first : Token} {rest : List Token}
    (notConnective : ∀ kind, first ≠ .connective kind) :
    table.Binds (first :: rest) ↔ table.Binds rest := by
  constructor
  · intro binds kind member
    exact binds kind (List.mem_cons_of_mem first member)
  · intro binds kind member
    rcases List.mem_cons.mp member with same | later
    · exact absurd same.symm (notConnective kind)
    · exact binds kind later

theorem Precedence.binds_append {first second : List Token} :
    table.Binds (first ++ second) ↔ table.Binds first ∧ table.Binds second := by
  constructor
  · intro binds
    exact ⟨fun kind member => binds kind (List.mem_append_left second member),
      fun kind member => binds kind (List.mem_append_right first member)⟩
  · intro given kind member
    rcases given with ⟨front, back⟩
    rcases List.mem_append.mp member with early | late
    · exact front kind early
    · exact back kind late

theorem Precedence.binds_nil : table.Binds [] := by
  simp [Binds]

theorem Precedence.of_nonneg
    (andPositive : 0 ≤ table.and)
    (orPositive : 0 ≤ table.or)
    (kind : Connective) :
    0 ≤ table.of kind := by
  cases kind with
  | and => exact andPositive
  | or => exact orPositive

theorem Precedence.binds_connective_cons {kind : Connective} {rest : List Token} :
    table.Binds (.connective kind :: rest) ↔ 0 ≤ table.of kind ∧ table.Binds rest := by
  constructor
  · intro binds
    exact ⟨binds kind List.mem_cons_self,
      fun other member => binds other (List.mem_cons_of_mem _ member)⟩
  · intro given other member
    rcases given with ⟨head, tail⟩
    rcases List.mem_cons.mp member with same | later
    · cases same
      exact head
    · exact tail other later

/-! ## What is read -/

/-- The operand takes up the input from `c` to `d`, is maximal, is nested no deeper than `room`,
and has no connectives that the table excludes. -/
structure Primary.Spans (table : Precedence) (room : Nat) (operand : Primary) (c d : Cursor) :
    Prop where
  across : c.Over operand.tokens d
  maximal : operand.Maximal
  shallow : operand.nesting ≤ room
  binds : table.Binds operand.tokens

/-- The same for a phrase. -/
structure Phrase.Spans (table : Precedence) (room : Nat) (phrase : Phrase) (c d : Cursor) :
    Prop where
  across : c.Over phrase.tokens d
  maximal : phrase.Maximal
  shallow : phrase.nesting ≤ room
  binds : table.Binds phrase.tokens

/-- The operand is over where `next` follows. -/
def Primary.EndsAt (table : Precedence) (operand : Primary) (next : Token) : Prop :=
  Token.CallsNothing operand.tokens next ∧
    (operand.isQuantification = true → table.Stops next)

/-- The phrase is over where `next` follows. -/
def Phrase.EndsAt (table : Precedence) (phrase : Phrase) (next : Token) : Prop :=
  Token.CallsNothing phrase.tokens next ∧ table.Stops next

theorem Phrase.endsAt_of_symbol {phrase : Phrase} {character : Char}
    (notOpening : character ≠ '(') :
    phrase.EndsAt table (.symbol character) := by
  constructor
  · intro same
    cases same
    exact absurd rfl notOpening
  · intro kind same
    cases same

/-- The parser reads exactly the operands. -/
def RecognisesPrimaries (table : Precedence) (room : Nat) (p : Parser Expression) : Prop :=
  ∀ c e d, p.Reads c e d ↔
    ∃ operand : Primary, operand.Spans table room c d ∧ operand.EndsAt table d.token ∧
      operand.tree table = e

/-- The parser reads exactly the phrases. -/
def RecognisesPhrases (table : Precedence) (room : Nat) (p : Parser Expression) : Prop :=
  ∀ c e d, p.Reads c e d ↔
    ∃ phrase : Phrase, phrase.Spans table room c d ∧ phrase.EndsAt table d.token ∧
      phrase.tree table = e

namespace Parser

variable {p inner : Parser Expression} {c d m : Cursor}

/-! ## Chains -/

/-- The connectives and operands that continue a chain take up the input from `c` to `d`, where
the chain is over. -/
def Continues (table : Precedence) (room : Nat) :
    List (Connective × Primary) → Cursor → Cursor → Prop
  | [], c, d => c = d ∧ table.Stops d.token
  | (kind, operand) :: later, c, d =>
      c.token = .connective kind ∧ 0 ≤ table.of kind ∧
        ∃ m, operand.Spans table room c.advance m ∧ operand.EndsAt table m.token ∧
          Continues table room later m d

theorem connectiveFrom_eq_some_iff {least : Int32} {t : Token} {kind : Connective} :
    connectiveFrom table least t = some kind ↔
      t = .connective kind ∧ least ≤ table.of kind := by
  cases t with
  | connective found =>
      by_cases below : table.of found < least
      · simp only [connectiveFrom, below, if_true, reduceCtorEq, Token.connective.injEq,
          false_iff, not_and]
        intro same
        subst same
        exact Int32.not_le.mpr below
      · simp only [connectiveFrom, below, if_false, Option.some.injEq, Token.connective.injEq]
        constructor
        · intro same
          subst same
          exact ⟨rfl, Int32.not_lt.mp below⟩
        · exact And.left
  | _ => simp [connectiveFrom]

theorem stops_iff {t : Token} :
    table.Stops t ↔ ∀ kind, connectiveFrom table 0 t = some kind → t = .endOfInput := by
  constructor
  · intro stops kind leads
    obtain ⟨same, binds⟩ := connectiveFrom_eq_some_iff.mp leads
    exact absurd binds (stops kind same)
  · intro none kind same binds
    have atEnd := none kind (connectiveFrom_eq_some_iff.mpr ⟨same, binds⟩)
    rw [same] at atEnd
    cases atEnd

theorem reads_links_iff (recognises : RecognisesPrimaries table room p) {values : List Link} :
    (links table 0 p).Reads c values d ↔
      ∃ further, Continues table room further c d ∧
        Primary.linksOfFurther table further = values := by
  rw [links, reads_many]
  constructor
  · intro repetition
    induction repetition with
    | stop stops => exact ⟨[], ⟨rfl, stops_iff.mpr stops⟩, rfl⟩
    | step leads notEnd first _ ih =>
        obtain ⟨same, binds⟩ := connectiveFrom_eq_some_iff.mp leads
        obtain ⟨e, taken, rfl⟩ := reads_bind_pure.mp first
        obtain ⟨operand, spans, ends, rfl⟩ := (recognises _ _ _).mp taken
        obtain ⟨later, continues, rfl⟩ := ih
        exact ⟨(_, operand) :: later, ⟨same, binds, _, spans, ends, continues⟩, rfl⟩
  · intro given
    rcases given with ⟨further, continues, rfl⟩
    induction further generalizing c with
    | nil =>
        obtain ⟨rfl, stops⟩ := continues
        exact .stop (stops_iff.mp stops)
    | cons link later ih =>
        obtain ⟨kind, operand⟩ := link
        obtain ⟨same, binds, m, spans, ends, rest⟩ := continues
        have taken : p.Reads c.advance (operand.tree table) m :=
          (recognises _ _ _).mpr ⟨operand, spans, ends, rfl⟩
        refine .step (connectiveFrom_eq_some_iff.mpr ⟨same, binds⟩) (by simp [same]) ?_ (ih rest)
        exact reads_bind_pure.mpr ⟨_, taken, rfl⟩

theorem spans_single_iff {first : Primary} :
    (Phrase.chain first []).Spans table room c d ∧ (Phrase.chain first []).EndsAt table d.token ↔
      first.Spans table room c d ∧ first.EndsAt table d.token ∧ table.Stops d.token := by
  have sameTokens := Phrase.tokens_single first
  have sameNesting := Phrase.nesting_single first
  constructor
  · intro given
    rcases given with ⟨⟨across, maximal, shallow, binds⟩, calls, stops⟩
    rw [sameTokens] at across binds calls
    rw [sameNesting] at shallow
    exact ⟨⟨across, maximal.1, shallow, binds⟩, ⟨calls, fun _ => stops⟩, stops⟩
  · intro given
    rcases given with ⟨⟨across, maximal, shallow, binds⟩, ⟨calls, _⟩, stops⟩
    rw [← sameTokens] at across binds calls
    rw [← sameNesting] at shallow
    exact ⟨⟨across, Phrase.maximal_single maximal, shallow, binds⟩, calls, stops⟩

theorem spans_cons_iff {first operand : Primary} {kind : Connective}
    {later : List (Connective × Primary)} :
    (Phrase.chain first ((kind, operand) :: later)).Spans table room c d ∧
        (Phrase.chain first ((kind, operand) :: later)).EndsAt table d.token ↔
      ∃ m, (first.Spans table room c m ∧ first.EndsAt table m.token) ∧
        m.token = .connective kind ∧ 0 ≤ table.of kind ∧
        (Phrase.chain operand later).Spans table room m.advance d ∧
        (Phrase.chain operand later).EndsAt table d.token := by
  have sameTokens : (Phrase.chain first ((kind, operand) :: later)).tokens =
      first.tokens ++ .connective kind :: (Phrase.chain operand later).tokens := by
    simp [Phrase.tokens, Primary.tokensOfFurther]
  have sameNesting : (Phrase.chain first ((kind, operand) :: later)).nesting =
      max first.nesting (Phrase.chain operand later).nesting := by
    simp [Phrase.nesting, Primary.nestingOfFurther]
  have nonempty := (Phrase.chain operand later).tokens_ne_nil
  have sameCalls : Token.CallsNothing (Phrase.chain first ((kind, operand) :: later)).tokens
      d.token ↔ Token.CallsNothing (Phrase.chain operand later).tokens d.token := by
    rw [sameTokens, Token.callsNothing_append (List.cons_ne_nil _ _), ← List.singleton_append,
      Token.callsNothing_append nonempty]
  constructor
  · intro given
    rcases given with ⟨⟨across, maximal, shallow, binds⟩, calls, stops⟩
    rw [sameTokens, Cursor.over_append] at across
    rw [sameTokens, Precedence.binds_append, Precedence.binds_connective_cons] at binds
    rw [sameNesting] at shallow
    obtain ⟨m, front, same, back⟩ := across
    obtain ⟨firstMaximal, notQuantification, operandMaximal, laterMaximal⟩ := maximal
    have ends : first.EndsAt table m.token := by
      rw [same]
      constructor
      · intro opens
        cases opens
      · intro isQuantification
        rw [notQuantification (by simp)] at isQuantification
        cases isQuantification
    exact ⟨m, ⟨⟨front, firstMaximal, by omega, binds.1⟩, ends⟩, same, binds.2.1,
      ⟨back, ⟨operandMaximal, laterMaximal⟩, by omega, binds.2.2⟩, sameCalls.mp calls, stops⟩
  · intro given
    rcases given with ⟨m, ⟨front, ends⟩, same, positive, back, calls, stops⟩
    have notQuantification : first.isQuantification = false := by
      cases shape : first.isQuantification with
      | false => rfl
      | true =>
          rw [same] at ends
          exact absurd positive (ends.2 shape kind rfl)
    refine ⟨⟨?_, ⟨front.maximal, fun _ => notQuantification, back.maximal⟩, ?_, ?_⟩,
      sameCalls.mpr calls, stops⟩
    · rw [sameTokens, Cursor.over_append]
      exact ⟨m, front.across, same, back.across⟩
    · rw [sameNesting]
      exact Nat.max_le.mpr ⟨front.shallow, back.shallow⟩
    · rw [sameTokens, Precedence.binds_append, Precedence.binds_connective_cons]
      exact ⟨front.binds, positive, back.binds⟩

theorem spans_chain_iff {first : Primary} {further : List (Connective × Primary)} :
    (Phrase.chain first further).Spans table room c d ∧
        (Phrase.chain first further).EndsAt table d.token ↔
      ∃ m, (first.Spans table room c m ∧ first.EndsAt table m.token) ∧
        Continues table room further m d := by
  induction further generalizing first c with
  | nil =>
      rw [spans_single_iff]
      constructor
      · intro given
        rcases given with ⟨spans, ends, stops⟩
        exact ⟨d, ⟨spans, ends⟩, rfl, stops⟩
      · intro given
        rcases given with ⟨m, ⟨spans, ends⟩, rfl, stops⟩
        exact ⟨spans, ends, stops⟩
  | cons link later ih =>
      obtain ⟨kind, operand⟩ := link
      rw [spans_cons_iff]
      simp only [ih, Continues, and_assoc]

theorem binds_of_continues {further : List (Connective × Primary)}
    (continues : Continues table room further c d) :
    ∀ link ∈ Primary.linksOfFurther table further, 0 ≤ table.of link.connective := by
  induction further generalizing c with
  | nil => simp [Primary.linksOfFurther]
  | cons link later ih =>
      obtain ⟨kind, operand⟩ := link
      obtain ⟨_, positive, m, _, _, rest⟩ := continues
      intro found member
      rcases List.mem_cons.mp member with rfl | inLater
      · exact positive
      · exact ih rest found inLater

theorem recognisesPhrases_chain (recognises : RecognisesPrimaries table room p) :
    RecognisesPhrases table room (chain table p) := by
  intro c e d
  simp only [chain, continuation, reads_bind, reads_pure, reads_links_iff recognises]
  constructor
  · intro given
    rcases given with ⟨left, m, taken, values, _, ⟨further, continues, rfl⟩, rfl, rfl⟩
    obtain ⟨first, spans, ends, rfl⟩ := (recognises _ _ _).mp taken
    have whole := spans_chain_iff.mpr ⟨m, ⟨spans, ends⟩, continues⟩
    refine ⟨.chain first further, whole.1, whole.2, ?_⟩
    rw [Chain.tree_eq_grouped _ (binds_of_continues continues), Phrase.tree]
  · intro given
    rcases given with ⟨⟨first, further⟩, spans, ends, rfl⟩
    obtain ⟨m, ⟨firstSpans, firstEnds⟩, continues⟩ := spans_chain_iff.mp ⟨spans, ends⟩
    have taken := (recognises _ _ _).mpr ⟨first, firstSpans, firstEnds, rfl⟩
    refine ⟨first.tree table, m, taken, _, d, ⟨further, continues, rfl⟩, ?_, rfl⟩
    rw [Chain.tree_eq_grouped _ (binds_of_continues continues), Phrase.tree]

/-! ## Arguments -/

/-- Phrases that each follow a comma take up the input from `c` to `d`. -/
structure SpanFurther (table : Precedence) (room : Nat) (further : List Phrase) (c d : Cursor) :
    Prop where
  across : c.Over (Phrase.tokensOfFurther further) d
  maximal : Phrase.AllMaximal further
  shallow : Phrase.nestingOfAll further ≤ room
  binds : table.Binds (Phrase.tokensOfFurther further)

theorem comma_eq_some_iff {t : Token} {u : Unit} :
    comma t = some u ↔ t = .symbol ',' := by
  by_cases isComma : t = .symbol ','
  · simp [comma, isComma]
  · simp [comma, isComma]

theorem ends_before_further {phrase : Phrase} {further : List Phrase}
    (across : c.Over (Phrase.tokensOfFurther further) d)
    (closes : d.token = .symbol ')') :
    phrase.EndsAt table c.token := by
  cases further with
  | nil =>
      rw [Phrase.tokensOfFurther, Cursor.over_nil] at across
      rw [across, closes]
      exact Phrase.endsAt_of_symbol (by decide)
  | cons next later =>
      rw [Phrase.tokensOfFurther, Cursor.over_cons] at across
      rw [across.1]
      exact Phrase.endsAt_of_symbol (by decide)

theorem spanFurther_cons_iff {next : Phrase} {later : List Phrase} :
    SpanFurther table room (next :: later) c d ↔
      c.token = .symbol ',' ∧ ∃ m, next.Spans table room c.advance m ∧
        SpanFurther table room later m d := by
  constructor
  · intro given
    rcases given with ⟨across, maximal, shallow, binds⟩
    rw [Phrase.tokensOfFurther, Cursor.over_cons, Cursor.over_append] at across
    rw [Phrase.tokensOfFurther, Precedence.binds_cons (by simp),
      Precedence.binds_append] at binds
    rw [Phrase.nestingOfAll] at shallow
    obtain ⟨leads, m, front, back⟩ := across
    exact ⟨leads, m, ⟨front, maximal.1, by omega, binds.1⟩,
      ⟨back, maximal.2, by omega, binds.2⟩⟩
  · intro given
    rcases given with ⟨leads, m, front, back⟩
    refine ⟨?_, ⟨front.maximal, back.maximal⟩, ?_, ?_⟩
    · rw [Phrase.tokensOfFurther, Cursor.over_cons, Cursor.over_append]
      exact ⟨leads, m, front.across, back.across⟩
    · rw [Phrase.nestingOfAll]
      exact Nat.max_le.mpr ⟨front.shallow, back.shallow⟩
    · rw [Phrase.tokensOfFurther, Precedence.binds_cons (by simp), Precedence.binds_append]
      exact ⟨front.binds, back.binds⟩

theorem repeats_comma_iff (recognises : RecognisesPhrases table room inner)
    {values : List Expression}
    (closes : d.token = .symbol ')') :
    Repeats comma (fun _ => inner) c values d ↔
      ∃ further, SpanFurther table room further c d ∧
        Phrase.treesOfAll table further = values := by
  constructor
  · intro repetition
    induction repetition with
    | stop stops =>
        exact ⟨[], ⟨rfl, trivial, Nat.zero_le room, Precedence.binds_nil⟩, rfl⟩
    | step leads notEnd first _ ih =>
        obtain ⟨phrase, spans, _, rfl⟩ := (recognises _ _ _).mp first
        obtain ⟨later, rest, rfl⟩ := ih closes
        exact ⟨phrase :: later,
          spanFurther_cons_iff.mpr ⟨comma_eq_some_iff.mp leads, _, spans, rest⟩, rfl⟩
  · intro given
    rcases given with ⟨further, spans, rfl⟩
    induction further generalizing c with
    | nil =>
        cases spans.across
        refine .stop fun u leads => ?_
        rw [comma_eq_some_iff.mp leads] at closes
        cases closes
    | cons next later ih =>
        obtain ⟨leads, m, front, back⟩ := spanFurther_cons_iff.mp spans
        have first : inner.Reads c.advance (next.tree table) m :=
          (recognises _ _ _).mpr ⟨next, front, ends_before_further back.across closes, rfl⟩
        have lead : comma c.token = some () := comma_eq_some_iff.mpr leads
        exact .step lead (by simp [leads]) first (ih back)

theorem reads_arguments_iff (recognises : RecognisesPhrases table room inner)
    {values : List Expression} :
    (arguments inner).Reads c values d ↔
      ∃ phrases m, c.Over (Phrase.tokensOfAll phrases) m ∧ m.token = .symbol ')' ∧
        d = m.advance ∧ Phrase.AllMaximal phrases ∧ Phrase.nestingOfAll phrases ≤ room ∧
        table.Binds (Phrase.tokensOfAll phrases) ∧ Phrase.treesOfAll table phrases = values := by
  rw [reads_arguments]
  constructor
  · intro given
    rcases given with ⟨closes, rfl, rfl⟩ | ⟨_, e, values, m, n, first, further, closes, rfl, rfl⟩
    · exact ⟨[], c, rfl, closes, rfl, trivial, Nat.zero_le room, Precedence.binds_nil, rfl⟩
    · obtain ⟨phrase, spans, _, rfl⟩ := (recognises _ _ _).mp first
      obtain ⟨later, rest, rfl⟩ := (repeats_comma_iff recognises closes).mp further
      refine ⟨phrase :: later, n, ?_, closes, rfl, ⟨spans.maximal, rest.maximal⟩, ?_, ?_, rfl⟩
      · rw [Phrase.tokensOfAll, Cursor.over_append]
        exact ⟨m, spans.across, rest.across⟩
      · rw [Phrase.nestingOfAll]
        exact Nat.max_le.mpr ⟨spans.shallow, rest.shallow⟩
      · rw [Phrase.tokensOfAll, Precedence.binds_append]
        exact ⟨spans.binds, rest.binds⟩
  · intro given
    rcases given with ⟨phrases, n, across, closes, rfl, maximal, shallow, binds, rfl⟩
    cases phrases with
    | nil =>
        cases across
        exact .inl ⟨closes, rfl, rfl⟩
    | cons phrase later =>
        rw [Phrase.tokensOfAll, Cursor.over_append] at across
        rw [Phrase.tokensOfAll, Precedence.binds_append] at binds
        rw [Phrase.nestingOfAll] at shallow
        obtain ⟨m, front, back⟩ := across
        have spans : phrase.Spans table room c m := ⟨front, maximal.1, by omega, binds.1⟩
        have rest : SpanFurther table room later m n := ⟨back, maximal.2, by omega, binds.2⟩
        have notClosing : c.token ≠ .symbol ')' := by
          obtain ⟨head, tail, shape, opens⟩ := phrase.tokens_eq_cons
          rw [shape] at front
          rw [front.1]
          intro same
          subst same
          cases opens
        exact .inr ⟨notClosing, _, _, m, n,
          (recognises _ _ _).mpr ⟨phrase, spans, ends_before_further back closes, rfl⟩,
          (repeats_comma_iff recognises closes).mpr ⟨later, rest, rfl⟩, closes, rfl, rfl⟩

/-! ## Operands -/

theorem tokens_quantification (quantifier : Quantifier) (name : String) (body : Phrase) :
    (Primary.quantification quantifier name body).tokens =
      [.quantifier quantifier, .identifier name, .symbol ','] ++ body.tokens := by
  rw [Primary.tokens]
  rfl

theorem tokens_call (name : String) (phrases : List Phrase) :
    (Primary.call name phrases).tokens =
      ([.identifier name, .symbol '('] ++ Phrase.tokensOfAll phrases) ++ [.symbol ')'] := by
  rw [Primary.tokens]
  rfl

theorem tokens_group (inner : Phrase) :
    (Primary.group inner).tokens = ([.symbol '('] ++ inner.tokens) ++ [.symbol ')'] := by
  rw [Primary.tokens]
  rfl

theorem primary_of_quantification (recognises : RecognisesPhrases table room inner)
    {e : Expression}
    (reached : (quantification inner).Reads c e d) :
    ∃ operand : Primary, operand.Spans table (room + 1) c d ∧ operand.EndsAt table d.token ∧
      operand.tree table = e := by
  obtain ⟨quantifier, name, body, m, head, taken, rfl⟩ := reads_quantification.mp reached
  obtain ⟨phrase, spans, ends, rfl⟩ := (recognises _ _ _).mp taken
  refine ⟨.quantification quantifier name phrase, ⟨?_, spans.maximal, ?_, ?_⟩, ⟨?_, ?_⟩, rfl⟩
  · rw [tokens_quantification, Cursor.over_append]
    exact ⟨m, head, spans.across⟩
  · rw [Primary.nesting]
    exact Nat.succ_le_succ spans.shallow
  · rw [tokens_quantification, Precedence.binds_append]
    exact ⟨by simp [Precedence.Binds], spans.binds⟩
  · rw [tokens_quantification, Token.callsNothing_append phrase.tokens_ne_nil]
    exact ends.1
  · exact fun _ => ends.2

theorem primary_of_application (recognises : RecognisesPhrases table room inner)
    {e : Expression}
    (reached : (application inner).Reads c e d) :
    ∃ operand : Primary, operand.Spans table (room + 1) c d ∧ operand.EndsAt table d.token ∧
      operand.tree table = e := by
  obtain ⟨name, named, alternatives⟩ := reads_application.mp reached
  rcases alternatives with ⟨notCalled, rfl, rfl⟩ | ⟨opens, values, taken, rfl⟩
  · refine ⟨.var name, ⟨⟨named, rfl⟩, trivial, Nat.succ_le_succ (Nat.zero_le room), ?_⟩, ⟨?_, ?_⟩,
      rfl⟩
    · simp [Primary.tokens, Precedence.Binds]
    · intro called
      exact absurd called notCalled
    · intro impossible
      cases impossible
  · obtain ⟨phrases, m, across, closes, rfl, maximal, shallow, binds, rfl⟩ :=
      (reads_arguments_iff recognises).mp taken
    refine ⟨.call name phrases, ⟨?_, maximal, ?_, ?_⟩, ⟨?_, ?_⟩, rfl⟩
    · have head : c.Over ([.identifier name, .symbol '('] ++ Phrase.tokensOfAll phrases) m :=
        Cursor.over_append.mpr ⟨_, ⟨named, opens, rfl⟩, across⟩
      rw [tokens_call, Cursor.over_append]
      exact ⟨m, head, closes, rfl⟩
    · rw [Primary.nesting]
      exact Nat.succ_le_succ shallow
    · rw [tokens_call, Precedence.binds_append, Precedence.binds_append]
      exact ⟨⟨by simp [Precedence.Binds], binds⟩, by simp [Precedence.Binds]⟩
    · rw [tokens_call]
      exact Token.callsNothing_append_closing _ _
    · intro impossible
      cases impossible

theorem primary_of_group (recognises : RecognisesPhrases table room inner) {e : Expression}
    (opens : c.token = .symbol '(')
    (reached : (group inner).Reads c e d) :
    ∃ operand : Primary, operand.Spans table (room + 1) c d ∧ operand.EndsAt table d.token ∧
      operand.tree table = e := by
  obtain ⟨m, taken, closes, rfl⟩ := reads_group.mp reached
  obtain ⟨phrase, spans, _, rfl⟩ := (recognises _ _ _).mp taken
  refine ⟨.group phrase, ⟨?_, spans.maximal, ?_, ?_⟩, ⟨?_, ?_⟩, rfl⟩
  · have head : c.Over ([.symbol '('] ++ phrase.tokens) m :=
      Cursor.over_append.mpr ⟨_, ⟨opens, rfl⟩, spans.across⟩
    rw [tokens_group, Cursor.over_append]
    exact ⟨m, head, closes, rfl⟩
  · rw [Primary.nesting]
    exact Nat.succ_le_succ spans.shallow
  · rw [tokens_group, Precedence.binds_append, Precedence.binds_append]
    exact ⟨⟨by simp [Precedence.Binds], spans.binds⟩, by simp [Precedence.Binds]⟩
  · rw [tokens_group]
    exact Token.callsNothing_append_closing _ _
  · intro impossible
    cases impossible

theorem reads_operand_of_primary (recognises : RecognisesPhrases table room inner)
    {operand : Primary}
    (spans : operand.Spans table (room + 1) c d)
    (ends : operand.EndsAt table d.token) :
    (Parser.operand inner).Reads c (operand.tree table) d := by
  obtain ⟨across, maximal, shallow, binds⟩ := spans
  rw [reads_operand]
  cases operand with
  | var name =>
      obtain ⟨named, rfl⟩ := across
      have notCalled : c.advance.token ≠ .symbol '(' := fun called => ends.1 called name rfl
      exact .inr (.inl (reads_application.mpr ⟨name, named, .inl ⟨notCalled, rfl, rfl⟩⟩))
  | call name phrases =>
      rw [Primary.tokens, Cursor.over_cons, Cursor.over_cons, Cursor.over_append] at across
      obtain ⟨named, opens, m, inside, closes, rfl⟩ := across
      rw [Primary.tokens, Precedence.binds_cons (by simp), Precedence.binds_cons (by simp),
        Precedence.binds_append] at binds
      have taken := (reads_arguments_iff recognises).mpr ⟨phrases, m, inside, closes, rfl, maximal,
        Nat.le_of_succ_le_succ shallow, binds.1, rfl⟩
      exact .inr (.inl (reads_application.mpr ⟨name, named, .inr ⟨opens, _, taken, rfl⟩⟩))
  | group phrase =>
      rw [Primary.tokens, Cursor.over_cons, Cursor.over_append] at across
      obtain ⟨opens, m, inside, closes, rfl⟩ := across
      rw [Primary.tokens, Precedence.binds_cons (by simp), Precedence.binds_append] at binds
      have phraseEnds : phrase.EndsAt table m.token := by
        rw [closes]
        exact Phrase.endsAt_of_symbol (by decide)
      have taken := (recognises _ _ _).mpr ⟨phrase,
        ⟨inside, maximal, Nat.le_of_succ_le_succ shallow, binds.1⟩, phraseEnds, rfl⟩
      exact .inr (.inr ⟨opens, reads_group.mpr ⟨m, taken, closes, rfl⟩⟩)
  | quantification quantifier name phrase =>
      obtain ⟨quantified, named, leads, inside⟩ := across
      rw [Primary.tokens, Precedence.binds_cons (by simp), Precedence.binds_cons (by simp),
        Precedence.binds_cons (by simp)] at binds
      have calls : Token.CallsNothing phrase.tokens d.token := by
        rw [← Token.callsNothing_append phrase.tokens_ne_nil, ← tokens_quantification]
        exact ends.1
      have taken := (recognises _ _ _).mpr ⟨phrase,
        ⟨inside, maximal, Nat.le_of_succ_le_succ shallow, binds⟩, ⟨calls, ends.2 rfl⟩, rfl⟩
      exact .inl (reads_quantification.mpr
        ⟨quantifier, name, _, _, ⟨quantified, named, leads, rfl⟩, taken, rfl⟩)

theorem recognisesPrimaries_operand (recognises : RecognisesPhrases table room inner) :
    RecognisesPrimaries table (room + 1) (operand inner) := by
  intro c e d
  constructor
  · intro reached
    rcases reads_operand.mp reached with quantified | applied | ⟨opens, grouped⟩
    · exact primary_of_quantification recognises quantified
    · exact primary_of_application recognises applied
    · exact primary_of_group recognises opens grouped
  · intro given
    rcases given with ⟨operand, spans, ends, rfl⟩
    exact reads_operand_of_primary recognises spans ends

theorem recognisesPrimaries_primaryWithin (table : Precedence) (room : Nat) :
    RecognisesPrimaries table room (primaryWithin table room) := by
  induction room with
  | zero =>
      intro c e d
      constructor
      · intro reached
        exact absurd reached not_reads_fail
      · intro given
        rcases given with ⟨operand, spans, _⟩
        have shallow := spans.shallow
        cases operand <;> simp [Primary.nesting] at shallow
  | succ room ih => exact recognisesPrimaries_operand (recognisesPhrases_chain ih)

theorem recognisesPhrases_chainWithin (table : Precedence) (room : Nat) :
    RecognisesPhrases table room (chain table (primaryWithin table room)) :=
  recognisesPhrases_chain (recognisesPrimaries_primaryWithin table room)

/-! ## Whole texts -/

variable {α : Type}

theorem result_eq_ok_iff {p : Parser α} {a : α} :
    (p.run c).result = .ok a ↔ ∃ d, p.Reads c a d := by
  constructor
  · intro result
    exact ⟨_, result, rfl⟩
  · intro given
    rcases given with ⟨d, result, _⟩
    exact result

theorem reads_whole {p : Parser α} {a : α} :
    (whole p).Reads c a d ↔ p.Reads c.advance a d ∧ d.token = .endOfInput := by
  simp only [whole, afterNext, bind_assoc, reads_advance_bind]
  rw [reads_bind]
  simp only [reads_token_bind]
  constructor
  · intro given
    rcases given with ⟨value, m, taken, rest⟩
    cases found : m.token with
    | endOfInput =>
        rw [found] at rest
        obtain ⟨rfl, rfl⟩ := reads_pure.mp rest
        exact ⟨taken, found⟩
    | _ =>
        rw [found] at rest
        exact absurd rest not_reads_fail
  · intro given
    rcases given with ⟨taken, atEnd⟩
    exact ⟨a, d, taken, by simp [atEnd]⟩

end Parser

theorem Phrase.endsAt_endOfInput {phrase : Phrase} : phrase.EndsAt table .endOfInput := by
  constructor
  · intro same
    cases same
  · intro kind same
    cases same

/-- With any room for nesting, a text is read as the tree of a phrase with its tokens, provided that
the phrase fits into the room and that the table excludes none of its connectives. -/
theorem Parser.result_whole_chain_iff (source : String) (table : Precedence) (room : Nat)
    (e : Expression) :
    ((whole (chain table (primaryWithin table room))).run
        (Cursor.ofFeed (source.toList.map some))).result = .ok e ↔
      ∃ phrase : Phrase, phrase.tokens = Text.tokens source ∧ phrase.Maximal ∧
        phrase.nesting ≤ room ∧ table.Binds phrase.tokens ∧ phrase.tree table = e := by
  obtain ⟨lexemes, finish, sourceTokens, isInner, atEnd, start⟩ := Text.advance_ofFeed source
  rw [result_eq_ok_iff, sourceTokens]
  simp only [reads_whole, start, recognisesPhrases_chainWithin table room _ _ _]
  constructor
  · intro given
    rcases given with ⟨d, ⟨phrase, spans, _, tree⟩, ended⟩
    have inside := phrase.endOfInput_not_mem_tokens
    obtain ⟨same, _⟩ :=
      (Cursor.over_along_iff isInner atEnd inside).mp ⟨spans.across, ended⟩
    exact ⟨phrase, same, spans.maximal, spans.shallow, spans.binds, tree⟩
  · intro given
    rcases given with ⟨phrase, same, maximal, shallow, binds, tree⟩
    have inside := phrase.endOfInput_not_mem_tokens
    obtain ⟨across, ended⟩ :=
      (Cursor.over_along_iff isInner atEnd inside).mpr ⟨same, rfl⟩
    have ends : phrase.EndsAt table (Cursor.along [] finish).token := by
      rw [ended]
      exact Phrase.endsAt_endOfInput
    exact ⟨_, ⟨phrase, ⟨across, maximal, shallow, binds⟩, ends, tree⟩, ended⟩

/-- Under any table, a text is parsed as the tree of a phrase with its tokens, provided that the
table excludes no connective of the phrase. -/
theorem parseExpression_ok_iff (source : String) (table : Precedence) (e : Expression) :
    (parseExpression source table).result = .ok e ↔
      ∃ phrase : Phrase, phrase.tokens = Text.tokens source ∧ phrase.Maximal ∧
        phrase.nesting ≤ 256 ∧ table.Binds phrase.tokens ∧ phrase.tree table = e :=
  Parser.result_whole_chain_iff source table Parser.nestingLimit e

/-- A text is parsed as an expression exactly if its tokens have a maximal derivation in which no
more than 256 primaries are nested, and the result is the tree of that derivation. -/
theorem parseExpression_eq_ok_iff_derived (source : String) (table : Precedence)
    (andPositive : 0 ≤ table.and)
    (orPositive : 0 ≤ table.or)
    (e : Expression) :
    (parseExpression source table).result = .ok e ↔
      ∃ phrase : Phrase, phrase.tokens = Text.tokens source ∧ phrase.Maximal ∧
        phrase.nesting ≤ 256 ∧ phrase.tree table = e := by
  have binds : ∀ tokens, table.Binds tokens := by
    intro tokens kind _
    cases kind with
    | and => exact andPositive
    | or => exact orPositive
  rw [parseExpression_ok_iff]
  constructor
  · intro given
    rcases given with ⟨phrase, same, maximal, shallow, _, tree⟩
    exact ⟨phrase, same, maximal, shallow, tree⟩
  · intro given
    rcases given with ⟨phrase, same, maximal, shallow, tree⟩
    exact ⟨phrase, same, maximal, shallow, binds phrase.tokens, tree⟩

theorem parses_disjunction_of_conjunction :
    0 ≤ Precedence.standard.and ∧ 0 ≤ Precedence.standard.or ∧
      (parseExpression "a \\/ b /\\ c" .standard).result =
        .ok (.binary .or (.var "a") (.binary .and (.var "b") (.var "c"))) := by
  have andPositive : 0 ≤ Precedence.standard.and := by decide
  have orPositive : 0 ≤ Precedence.standard.or := by decide
  refine ⟨andPositive, orPositive, ?_⟩
  refine (parseExpression_eq_ok_iff_derived _ _ andPositive orPositive _).mpr
    ⟨.chain (.var "a") [(.or, .var "b"), (.and, .var "c")], ?_, ?_, ?_, ?_⟩
  · decide +kernel
  · simp [Phrase.Maximal, Primary.Maximal, Primary.FurtherMaximal, Primary.isQuantification]
  · decide
  · decide +kernel

end FormulaReader
