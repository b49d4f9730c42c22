import FormulaReader.Proofs.Sentences

/-!
Expectations: where a parser fails, the tokens that it has read over begin a sentence, and each
token that the fault names as expected could really come next. A parser is judged by the language
of what may follow where it starts; what may follow where it stops is a left quotient of that.
-/

namespace FormulaReader

/-! ## What a fault expects -/

def Token.isIdentifier : Token → Bool
  | .identifier _ => true
  | _ => false

/-- The tokens that the words of the fault name as expected. -/
def Fault.expects : Fault → Token → Bool
  | .expectedExpression _, t => t.opensOperand
  | .unclosedGroup, t => t = .symbol ')'
  | .unclosedArguments, t => t = .symbol ')' || t = .symbol ','
  | .expectedBoundVariable, t => t.isIdentifier
  | .expectedBody, t => t = .symbol ','
  | .expectedFunctionName, t => t.isIdentifier
  | .expectedParameters, t => t = .symbol '('
  | .unclosedParameters, t => t = .symbol ')'
  | .expectedParameter, t => t.isIdentifier
  | .tooDeep _, _ => false
  | .unexpectedRest _, _ => false

/-- Where `L` may follow, something can still follow, and it can begin with any token that the
fault expects. -/
structure Fault.Fits (fault : Fault) (L : Language Token) : Prop where
  viable : Viable L []
  expected : ∀ t, fault.expects t = true → Viable L [t]

section

variable {L : Language Token} {fault : Fault}

theorem Fault.fits_of_expected {t : Token}
    (named : fault.expects t = true)
    (possible : ∀ u, fault.expects u = true → Viable L [u]) :
    fault.Fits L :=
  ⟨Viable.of_append (possible t named), possible⟩

/-- A fault that expects only the one token fits where that token can follow. -/
theorem Fault.fits_of_only {t : Token}
    (only : ∀ u, fault.expects u = true ↔ u = t)
    (possible : Viable L [t]) :
    fault.Fits L := by
  apply fits_of_expected ((only t).mpr rfl)
  intro u named
  rw [(only u).mp named]
  exact possible

theorem Fault.fits_of_identifier
    (only : ∀ u, fault.expects u = u.isIdentifier)
    (possible : ∀ x, Viable L [.identifier x]) :
    fault.Fits L := by
  have named : fault.expects (.identifier "x") = true := only _
  apply fits_of_expected named
  intro u expected
  rw [only] at expected
  cases u with
  | identifier x => exact possible x
  | _ => cases expected

end

/-! ## What may come next -/

/-- Any expression may come next. -/
def TakesPhrases (L : Language Token) : Prop :=
  ∀ phrase : Phrase, Viable L phrase.tokens

/-- A chain of operands may go on. -/
def TakesLinks (L : Language Token) : Prop :=
  ∀ further : List (Connective × Primary), Viable L (Primary.tokensOfFurther further)

/-- Further arguments may come, and then the end of their list. -/
def TakesArguments (L : Language Token) : Prop :=
  ∀ further : List Phrase, Viable L (Phrase.tokensOfFurther further ++ [.symbol ')'])

/-- Further parameters may come, and then the end of their list. -/
def TakesParameters (L : Language Token) : Prop :=
  ∀ names : List String, Viable L (Prototype.tokensOfFurther names ++ [.symbol ')'])

theorem TakesPhrases.viable_operand {L : Language Token} (takes : TakesPhrases L)
    (operand : Primary) :
    Viable L operand.tokens := by
  have alone := takes (.chain operand [])
  rw [Phrase.tokens_single] at alone
  exact alone

/-- Where an expression may come, so may any token that an operand can begin with. -/
theorem TakesPhrases.fits_expectedExpression {L : Language Token} (takes : TakesPhrases L)
    (found : Token) :
    (Fault.expectedExpression found).Fits L := by
  have x : Phrase := .chain (.var "x") []
  have opened : ∀ t, t.opensOperand = true → Viable L [t] := by
    intro t opens
    cases t with
    | identifier name => exact takes.viable_operand (.var name)
    | quantifier kind =>
        have quantified := takes.viable_operand (.quantification kind "x" x)
        rw [Primary.tokens, ← List.singleton_append] at quantified
        exact quantified.of_append
    | symbol character =>
        have grouped := takes.viable_operand (.group x)
        rw [Primary.tokens, ← List.singleton_append] at grouped
        have parenthesis : character = '(' := of_decide_eq_true opens
        rw [parenthesis]
        exact grouped.of_append
    | _ => cases opens
  exact Fault.fits_of_expected (t := .identifier "x") rfl opened

namespace Parser

variable {α β : Type} {L : Language Token} {c d : Cursor}

/-- If `p` fails, the fault fits where it stops. -/
def PromisesAt (L : Language Token) (p : Parser α) (c : Cursor) : Prop :=
  ∀ e, (p.run c).result = .error e →
    ∃ tokens, c.Over tokens (p.run c).state ∧ e.fault.Fits (L.leftQuotient tokens)

/-! ## Building blocks -/

theorem promisesAt_pure (a : α) : PromisesAt L (pure a) c := by
  intro e failed
  cases failed

theorem promisesAt_fail {fault : Fault} (fits : fault.Fits L) :
    PromisesAt L (fail fault : Parser α) c := by
  intro e failed
  cases failed
  exact ⟨[], rfl, fits⟩

theorem PromisesAt.bind {p : Parser α} {next : α → Parser β}
    (first : PromisesAt L p c)
    (second : ∀ a m, p.Reads c a m →
      ∃ tokens, c.Over tokens m ∧ PromisesAt (L.leftQuotient tokens) (next a) m) :
    PromisesAt L (p >>= next) c := by
  have goesOn := second
  simp only [Reads] at goesOn
  simp only [PromisesAt, run_bind, Activity.bind_apply] at first ⊢
  cases shape : p.run c with
  | mk result m events =>
      rw [shape] at first goesOn
      intro e failed
      cases result with
      | error earlier =>
          cases failed
          exact first e rfl
      | ok a =>
          obtain ⟨tokens, across, promises⟩ := goesOn a m ⟨rfl, rfl⟩
          obtain ⟨further, onward, fits⟩ := promises e failed
          refine ⟨tokens ++ further, Cursor.over_append.mpr ⟨m, across, onward⟩, ?_⟩
          rw [Language.leftQuotient_append]
          exact fits

theorem PromisesAt.bind_of_succeeds {p : Parser α} {next : α → Parser β}
    (promises : PromisesAt L p c)
    (succeeds : ∀ a m e, ((next a).run m).result ≠ .error e) :
    PromisesAt L (p >>= next) c := by
  simp only [PromisesAt, run_bind, Activity.bind_apply] at promises ⊢
  cases shape : p.run c with
  | mk result m events =>
      rw [shape] at promises
      intro e failed
      cases result with
      | error earlier =>
          cases failed
          exact promises e rfl
      | ok a => exact absurd failed (succeeds a m e)

theorem PromisesAt.bind_pure {p : Parser α} (promises : PromisesAt L p c) (f : α → β) :
    PromisesAt L (p >>= fun a => pure (f a)) c := by
  apply promises.bind_of_succeeds
  intro a m e failed
  cases failed

theorem promisesAt_token_bind {next : Token → Parser α}
    (promises : PromisesAt L (next c.token) c) :
    PromisesAt L (token >>= next) c := by
  simp only [PromisesAt, run_token_bind]
  exact promises

theorem promisesAt_advance_bind {next : Unit → Parser α}
    (promises : PromisesAt (L.leftQuotient [c.token]) (next ()) c.advance) :
    PromisesAt L (advance >>= next) c := by
  have never : PromisesAt L advance c := by
    intro e failed
    cases failed
  apply never.bind
  intro _ m read
  rw [reads_advance.mp read]
  exact ⟨[c.token], ⟨rfl, rfl⟩, promises⟩

theorem promisesAt_expect_bind {expected : Token} {fault : Fault} {next : Unit → Parser α}
    (fits : fault.Fits L)
    (promises : PromisesAt (L.leftQuotient [expected]) (next ()) c.advance) :
    PromisesAt L (expect expected fault >>= next) c := by
  have first : PromisesAt L (expect expected fault) c := by
    apply promisesAt_token_bind
    by_cases found : c.token = expected
    · rw [if_pos found]
      intro e failed
      cases failed
    · rw [if_neg found]
      exact promisesAt_fail fits
  apply first.bind
  intro _ m read
  obtain ⟨found, rfl⟩ := reads_expect.mp read
  exact ⟨[expected], ⟨found, rfl⟩, promises⟩

theorem promisesAt_name? : PromisesAt L name? c := by
  apply promisesAt_token_bind
  cases c.token with
  | identifier x => exact promisesAt_advance_bind (promisesAt_pure (some x))
  | _ => exact promisesAt_pure none

theorem promisesAt_name {missing : Fault} (fits : missing.Fits L) :
    PromisesAt L (name missing) c := by
  apply promisesAt_name?.bind
  intro found m read
  rcases reads_name?.mp read with ⟨x, named, rfl, rfl⟩ | ⟨_, rfl, rfl⟩
  · exact ⟨[.identifier x], ⟨named, rfl⟩, promisesAt_pure x⟩
  · exact ⟨[], rfl, promisesAt_fail fits⟩

theorem promisesAt_name_bind {missing : Fault} {next : String → Parser α}
    (fits : missing.Fits L)
    (promises : ∀ x, PromisesAt (L.leftQuotient [.identifier x]) (next x) c.advance) :
    PromisesAt L (name missing >>= next) c := by
  apply (promisesAt_name fits).bind
  intro x m read
  obtain ⟨named, rfl⟩ := reads_name.mp read
  exact ⟨[.identifier x], ⟨named, rfl⟩, promises x⟩

/-! ## Repetition -/

/-- Where `takes` holds of what may follow, an item may come, and after it `takes` holds again. -/
structure KeepsUp (takes : Language Token → Prop) (lead : Token → Option β)
    (item : β → Parser α) : Prop where
  promises : ∀ L b (c : Cursor), takes L → lead c.token = some b →
    PromisesAt (L.leftQuotient [c.token]) (item b) c.advance
  reads : ∀ L b (c : Cursor) a m, takes L → lead c.token = some b → (item b).Reads c.advance a m →
    ∃ tokens, c.advance.Over tokens m ∧ takes (L.leftQuotient (c.token :: tokens))

variable {takes : Language Token → Prop} {lead : Token → Option β} {item : β → Parser α}

theorem KeepsUp.promisesAt_many (keeps : KeepsUp takes lead item) (begins : takes L)
    (c : Cursor) :
    PromisesAt L (many lead item) c := by
  -- Every item reads on, and what may follow it is again such that `takes` holds.
  induction size : c.size using Nat.strongRecOn generalizing L c with
  | ind n ih =>
      rw [many_eq]
      apply promisesAt_token_bind
      cases leads : lead c.token with
      | none => exact promisesAt_pure []
      | some b =>
          by_cases atEnd : c.token = .endOfInput
          · simp only [atEnd, if_true]
            exact promisesAt_pure []
          · simp only [atEnd, if_false, afterNext, bind_assoc]
            apply promisesAt_advance_bind
            apply (keeps.promises L b c begins leads).bind
            intro a m read
            obtain ⟨tokens, across, still⟩ := keeps.reads L b c a m begins leads read
            refine ⟨tokens, across, ?_⟩
            have shorter : m.size < n := by
              have left := size_afterNext_lt (item b) atEnd
              have reached : ((item b).afterNext.run c).state = m :=
                (reads_advance_bind.mpr read).2
              rw [reached, size] at left
              exact left
            rw [← List.singleton_append, Language.leftQuotient_append] at still
            rw [map_eq_pure_bind]
            exact (ih m.size shorter still m rfl).bind_pure (a :: ·)

theorem KeepsUp.exists_over (keeps : KeepsUp takes lead item) (begins : takes L)
    {values : List α}
    (repeats : Repeats lead item c values d) :
    ∃ tokens, c.Over tokens d ∧ takes (L.leftQuotient tokens) := by
  induction repeats generalizing L with
  | stop stops => exact ⟨[], rfl, begins⟩
  | step leads notEnd first _ ih =>
      obtain ⟨tokens, across, still⟩ := keeps.reads _ _ _ _ _ begins leads first
      obtain ⟨later, onward, takesLater⟩ := ih still
      refine ⟨_ :: (tokens ++ later), ⟨rfl, Cursor.over_append.mpr ⟨_, across, onward⟩⟩, ?_⟩
      rw [← List.cons_append, Language.leftQuotient_append]
      exact takesLater

/-! ## The rules of the grammar -/

variable {table : Precedence} {room : Nat} {inner p : Parser Expression}

/-- The parser promises what it should wherever expressions may come next. -/
def PromisesPhrases (inner : Parser Expression) : Prop :=
  ∀ (L : Language Token) (c : Cursor), TakesPhrases L → PromisesAt L inner c

theorem promisesAt_group
    (inside : PromisesPhrases inner)
    (recognises : RecognisesPhrases table room inner)
    (opens : c.token = .symbol '(')
    (takes : TakesPhrases L) :
    PromisesAt L (group inner) c := by
  have closing : ∀ phrase : Phrase,
      Viable (L.leftQuotient [.symbol '(']) (phrase.tokens ++ [.symbol ')']) := by
    intro phrase
    have grouped := takes.viable_operand (.group phrase)
    rw [Primary.tokens] at grouped
    exact viable_leftQuotient_iff.mpr grouped
  apply promisesAt_advance_bind
  rw [opens]
  apply (inside _ _ fun phrase => (closing phrase).of_append).bind
  intro e m read
  obtain ⟨phrase, spans, _⟩ := (recognises _ _ _).mp read
  refine ⟨phrase.tokens, spans.across, ?_⟩
  have possible := viable_leftQuotient_iff.mpr (closing phrase)
  exact promisesAt_expect_bind (Fault.fits_of_only (by simp [Fault.expects]) possible)
    (promisesAt_pure e)

theorem keepsUp_arguments
    (inside : PromisesPhrases inner)
    (recognises : RecognisesPhrases table room inner) :
    KeepsUp TakesArguments comma fun _ => inner := by
  have further : ∀ L, TakesArguments L → ∀ (next : Phrase) (later : List Phrase),
      Viable (L.leftQuotient [.symbol ','])
        (next.tokens ++ (Phrase.tokensOfFurther later ++ [.symbol ')'])) := by
    intro L takes next later
    have listed := takes (next :: later)
    rw [Phrase.tokensOfFurther, List.cons_append, List.append_assoc] at listed
    exact viable_leftQuotient_iff.mpr listed
  constructor
  · intro L _ c takes leads
    rw [comma_eq_some_iff.mp leads]
    exact inside _ _ fun phrase => (further L takes phrase []).of_append
  · intro L _ c e m takes leads read
    obtain ⟨phrase, spans, _⟩ := (recognises _ _ _).mp read
    refine ⟨phrase.tokens, spans.across, ?_⟩
    intro later
    rw [comma_eq_some_iff.mp leads, ← List.singleton_append, Language.leftQuotient_append]
    exact viable_leftQuotient_iff.mpr (further L takes phrase later)

theorem promisesAt_arguments
    (inside : PromisesPhrases inner)
    (recognises : RecognisesPhrases table room inner)
    (takes : ∀ phrases, Viable L (Phrase.tokensOfAll phrases ++ [.symbol ')'])) :
    PromisesAt L (arguments inner) c := by
  have listed : ∀ (first : Phrase) (later : List Phrase),
      Viable L (first.tokens ++ (Phrase.tokensOfFurther later ++ [.symbol ')'])) := by
    intro first later
    have all := takes (first :: later)
    rw [Phrase.tokensOfAll, List.append_assoc] at all
    exact all
  apply promisesAt_token_bind
  by_cases closes : c.token = .symbol ')'
  · rw [if_pos closes]
    exact promisesAt_advance_bind (promisesAt_pure [])
  · rw [if_neg closes]
    apply (inside L c fun phrase => (listed phrase []).of_append).bind
    intro e m read
    obtain ⟨phrase, spans, _⟩ := (recognises _ _ _).mp read
    refine ⟨phrase.tokens, spans.across, ?_⟩
    have keeps := keepsUp_arguments inside recognises
    have begins : TakesArguments (L.leftQuotient phrase.tokens) := fun later =>
      viable_leftQuotient_iff.mpr (listed phrase later)
    apply (keeps.promisesAt_many begins m).bind
    intro values k read
    obtain ⟨tokens, across, still⟩ := keeps.exists_over begins (reads_many.mp read)
    refine ⟨tokens, across, ?_⟩
    have anotherOrNone : ∀ t, Fault.unclosedArguments.expects t = true →
        Viable ((L.leftQuotient phrase.tokens).leftQuotient tokens) [t] := by
      intro t named
      simp only [Fault.expects, Bool.or_eq_true, decide_eq_true_eq] at named
      rcases named with rfl | rfl
      · exact still []
      · have another := still [.chain (.var "x") []]
        rw [Phrase.tokensOfFurther, List.cons_append] at another
        exact Viable.of_append another
    have fits := Fault.fits_of_expected (t := .symbol ')') rfl anotherOrNone
    exact promisesAt_expect_bind fits (promisesAt_pure (e :: values))

theorem promisesAt_application
    (inside : PromisesPhrases inner)
    (recognises : RecognisesPhrases table room inner)
    (takes : TakesPhrases L) :
    PromisesAt L (application inner) c := by
  apply promisesAt_token_bind
  cases found : c.token with
  | identifier x =>
      apply promisesAt_advance_bind
      apply promisesAt_token_bind
      by_cases opens : c.advance.token = .symbol '('
      · rw [if_pos opens]
        apply promisesAt_advance_bind
        rw [found, opens]
        refine PromisesAt.bind_pure ?_ (Expression.call x)
        apply promisesAt_arguments inside recognises
        intro phrases
        have called := takes.viable_operand (.call x phrases)
        rw [Primary.tokens] at called
        exact viable_leftQuotient_iff.mpr (viable_leftQuotient_iff.mpr called)
      · rw [if_neg opens]
        exact promisesAt_pure _
  | _ => exact promisesAt_fail (takes.fits_expectedExpression _)

theorem promisesAt_quantification
    (inside : PromisesPhrases inner)
    (takes : TakesPhrases L) :
    PromisesAt L (quantification inner) c := by
  apply promisesAt_token_bind
  cases found : c.token with
  | quantifier kind =>
      have quantified : ∀ (x : String) (body : Phrase),
          Viable (L.leftQuotient [.quantifier kind])
            (.identifier x :: .symbol ',' :: body.tokens) := by
        intro x body
        have whole := takes.viable_operand (.quantification kind x body)
        rw [Primary.tokens] at whole
        exact viable_leftQuotient_iff.mpr whole
      have x : Phrase := .chain (.var "x") []
      apply promisesAt_advance_bind
      rw [found]
      apply promisesAt_name_bind
      · apply Fault.fits_of_identifier fun _ => rfl
        intro name
        exact Viable.of_append (quantified name x)
      · intro name
        have bodies : ∀ body : Phrase,
            Viable ((L.leftQuotient [.quantifier kind]).leftQuotient [.identifier name])
              (.symbol ',' :: body.tokens) := fun body =>
          viable_leftQuotient_iff.mpr (quantified name body)
        apply promisesAt_expect_bind
        · apply Fault.fits_of_only (t := .symbol ',') (by simp [Fault.expects])
          exact Viable.of_append (bodies x)
        · apply PromisesAt.bind_pure
          apply inside
          intro body
          exact viable_leftQuotient_iff.mpr (bodies body)
  | _ => exact promisesAt_fail (takes.fits_expectedExpression _)

theorem promisesPhrases_operand
    (inside : PromisesPhrases inner)
    (recognises : RecognisesPhrases table room inner) :
    PromisesPhrases (operand inner) := by
  intro L c takes
  apply promisesAt_token_bind
  split
  · exact promisesAt_quantification inside takes
  · exact promisesAt_application inside recognises takes
  · next opens => exact promisesAt_group inside recognises opens takes
  · exact promisesAt_fail (takes.fits_expectedExpression _)

theorem keepsUp_links
    (operands : PromisesPhrases p)
    (recognises : RecognisesPrimaries table room p) :
    KeepsUp TakesLinks (connectiveFrom table 0) fun kind => do
      return Link.mk kind (← p) := by
  have further : ∀ L, TakesLinks L → ∀ kind (operand : Primary) later,
      Viable (L.leftQuotient [.connective kind])
        (operand.tokens ++ Primary.tokensOfFurther later) := by
    intro L takes kind operand later
    have linked := takes ((kind, operand) :: later)
    rw [Primary.tokensOfFurther] at linked
    exact viable_leftQuotient_iff.mpr linked
  constructor
  · intro L kind c takes leads
    obtain ⟨found, _⟩ := connectiveFrom_eq_some_iff.mp leads
    rw [found]
    apply PromisesAt.bind_pure
    apply operands
    intro phrase
    obtain ⟨first, later⟩ := phrase
    rw [Phrase.tokens]
    exact further L takes kind first later
  · intro L kind c link m takes leads read
    obtain ⟨found, _⟩ := connectiveFrom_eq_some_iff.mp leads
    obtain ⟨e, taken, rfl⟩ := reads_bind_pure.mp read
    obtain ⟨operand, spans, _⟩ := (recognises _ _ _).mp taken
    refine ⟨operand.tokens, spans.across, ?_⟩
    intro later
    rw [found, ← List.singleton_append, Language.leftQuotient_append]
    exact viable_leftQuotient_iff.mpr (further L takes kind operand later)

theorem promisesPhrases_chain
    (operands : PromisesPhrases p)
    (recognises : RecognisesPrimaries table room p) :
    PromisesPhrases (chain table p) := by
  intro L c takes
  apply (operands L c takes).bind
  intro left m read
  obtain ⟨first, spans, _⟩ := (recognises _ _ _).mp read
  refine ⟨first.tokens, spans.across, ?_⟩
  apply PromisesAt.bind_pure
  apply (keepsUp_links operands recognises).promisesAt_many
  intro further
  have whole := takes (.chain first further)
  rw [Phrase.tokens] at whole
  exact viable_leftQuotient_iff.mpr whole

theorem promisesPhrases_primaryWithin (table : Precedence) (room : Nat) :
    PromisesPhrases (primaryWithin table room) := by
  induction room with
  | zero =>
      -- The limit is met before any token is looked at, where an expression was still possible.
      intro L c takes
      have x : Phrase := .chain (.var "x") []
      refine promisesAt_fail ⟨(takes x).of_append, ?_⟩
      intro t named
      cases named
  | succ room ih =>
      have inside : PromisesPhrases (chain table (primaryWithin table room)) :=
        promisesPhrases_chain ih (recognisesPrimaries_primaryWithin table room)
      exact promisesPhrases_operand inside (recognisesPhrases_chainWithin table room)

theorem promisesPhrases_chainWithin (table : Precedence) (room : Nat) :
    PromisesPhrases (chain table (primaryWithin table room)) :=
  promisesPhrases_chain (promisesPhrases_primaryWithin table room)
    (recognisesPrimaries_primaryWithin table room)

/-! ## Definitions -/

theorem keepsUp_parameters :
    KeepsUp TakesParameters comma fun _ => name .expectedParameter := by
  have further : ∀ L, TakesParameters L → ∀ (x : String) (later : List String),
      Viable (L.leftQuotient [.symbol ','])
        (.identifier x :: (Prototype.tokensOfFurther later ++ [.symbol ')'])) := by
    intro L takes x later
    have listed := takes (x :: later)
    rw [Prototype.tokensOfFurther] at listed
    exact viable_leftQuotient_iff.mpr listed
  constructor
  · intro L _ c takes leads
    rw [comma_eq_some_iff.mp leads]
    apply promisesAt_name
    apply Fault.fits_of_identifier fun _ => rfl
    intro x
    exact Viable.of_append (further L takes x [])
  · intro L _ c x m takes leads read
    obtain ⟨named, rfl⟩ := reads_name.mp read
    refine ⟨[.identifier x], ⟨named, rfl⟩, ?_⟩
    intro later
    rw [comma_eq_some_iff.mp leads, ← List.singleton_append, Language.leftQuotient_append]
    exact viable_leftQuotient_iff.mpr (further L takes x later)

theorem promisesAt_parameters_bind {next : List String → Parser α}
    (takes : ∀ names, Viable L (Prototype.tokensOfParameters names ++ [.symbol ')']))
    (promises : ∀ names m tokens, c.Over tokens m →
      Viable (L.leftQuotient tokens) [.symbol ')'] →
      PromisesAt (L.leftQuotient tokens) (next names) m) :
    PromisesAt L (parameters >>= next) c := by
  rw [parameters, bind_assoc]
  apply promisesAt_name?.bind
  intro found m read
  rcases reads_name?.mp read with ⟨x, named, rfl, rfl⟩ | ⟨_, rfl, rfl⟩
  · refine ⟨[.identifier x], ⟨named, rfl⟩, ?_⟩
    have begins : TakesParameters (L.leftQuotient [.identifier x]) := by
      intro later
      have listed := takes (x :: later)
      rw [Prototype.tokensOfParameters] at listed
      exact viable_leftQuotient_iff.mpr listed
    simp only [bind_assoc]
    apply (keepsUp_parameters.promisesAt_many begins _).bind
    intro later k more
    obtain ⟨tokens, across, still⟩ := keepsUp_parameters.exists_over begins (reads_many.mp more)
    refine ⟨tokens, across, ?_⟩
    rw [pure_bind, ← Language.leftQuotient_append]
    apply promises
    · exact ⟨named, across⟩
    · rw [Language.leftQuotient_append]
      exact still []
  · refine ⟨[], rfl, ?_⟩
    exact promises [] _ [] rfl (takes [])

theorem promisesAt_prototype
    (takes : ∀ head : Prototype, Viable L head.tokens) :
    PromisesAt L prototype c := by
  have behind : ∀ (x : String) (names : List String),
      Viable (L.leftQuotient [.identifier x])
        (.symbol '(' :: (Prototype.tokensOfParameters names ++ [.symbol ')'])) := by
    intro x names
    have whole := takes ⟨x, names⟩
    rw [Prototype.tokens] at whole
    exact viable_leftQuotient_iff.mpr whole
  apply promisesAt_name_bind
  · apply Fault.fits_of_identifier fun _ => rfl
    intro x
    exact Viable.of_append (viable_leftQuotient_iff.mp (behind x []))
  · intro x
    apply promisesAt_expect_bind
    · apply Fault.fits_of_only (t := .symbol '(') (by simp [Fault.expects])
      exact Viable.of_append (behind x [])
    · apply promisesAt_parameters_bind
      · intro names
        exact viable_leftQuotient_iff.mpr (behind x names)
      · intro names m tokens across closing
        apply promisesAt_expect_bind
        · exact Fault.fits_of_only (by simp [Fault.expects]) closing
        · intro e failed
          cases failed

theorem promisesAt_definitionWithin (table : Precedence) (room : Nat)
    (keyword : c.token = .define) :
    PromisesAt Sentence.definitions (definitionWithin table room) c := by
  have bodies : ∀ (head : Prototype) (body : Phrase),
      Viable (Sentence.definitions.leftQuotient [.define]) (head.tokens ++ body.tokens) := by
    intro head body
    apply viable_leftQuotient_iff.mpr
    exact Viable.of_mem ⟨head, body, rfl⟩
  apply promisesAt_advance_bind
  rw [keyword]
  have x : Phrase := .chain (.var "x") []
  apply (promisesAt_prototype fun head => (bodies head x).of_append).bind
  intro head m read
  refine ⟨head.tokens, reads_prototype_iff.mp read, ?_⟩
  have takes : TakesPhrases
      ((Sentence.definitions.leftQuotient [.define]).leftQuotient head.tokens) := fun body =>
    viable_leftQuotient_iff.mpr (bodies head body)
  apply (promisesPhrases_chainWithin table room _ m takes).bind_of_succeeds
  intro body k e failed
  cases failed

end Parser

end FormulaReader
