import FormulaReader.Proofs.Phrase
import FormulaReader.Proofs.Reading

/-!
Locality: one token of lookahead decides. What a parser does depends on the tokens up to the one
it stops at, which has not been read over, and not on anything behind that. It does not even depend
on that token, as long as no expression goes on with it: a foreign token there is met like any
other, and only an error that quotes the token tells the two apart.
-/

namespace FormulaReader

/-! ## Counting what was read -/

namespace Event

def note? : Event → Option Note
  | .noted n => some n
  | _ => none

/-- The events with all but the notes blotted out. -/
def outline (events : List Event) : List (Option Note) :=
  events.map note?

/-- How many lexemes a parser has read if it left the events. -/
def readCount (events : List Event) : Nat :=
  (outline events).count none

@[simp] theorem outline_append (earlier later : List Event) :
    outline (earlier ++ later) = outline earlier ++ outline later :=
  List.map_append

@[simp] theorem readCount_append (earlier later : List Event) :
    readCount (earlier ++ later) = readCount earlier + readCount later := by
  rw [readCount, outline_append, List.count_append, readCount, readCount]

theorem readCount_of_outline {events others : List Event}
    (same : outline events = outline others) :
    readCount events = readCount others := by
  rw [readCount, same, readCount]

end Event

namespace Cursor

/-- The cursor `n` lexemes on. -/
def skip (c : Cursor) : Nat → Cursor
  | 0 => c
  | n + 1 => c.advance.skip n

@[simp] theorem skip_zero (c : Cursor) : c.skip 0 = c := rfl

theorem skip_add (c : Cursor) (m n : Nat) : c.skip (m + n) = (c.skip m).skip n := by
  induction m generalizing c with
  | zero => rw [Nat.zero_add, skip_zero]
  | succ m ih => rw [Nat.succ_add, skip, skip, ih]

theorem skip_succ (c : Cursor) (n : Nat) : c.skip (n + 1) = (c.skip n).advance := by
  rw [skip_add]
  rfl

theorem Path.eq_skip {c d : Cursor} {events : List Event} (path : c.Path events d) :
    d = c.skip (Event.readCount events) := by
  induction path with
  | stay => rfl
  | @advance events d _ ih =>
      have one : Event.readCount [.read d.advance.current] = 1 := rfl
      rw [Event.readCount_append, one, skip_succ, ← ih]
  | @note events d n _ ih =>
      have none : Event.readCount [.noted n] = 0 := rfl
      rw [Event.readCount_append, none, Nat.add_zero, ← ih]

end Cursor

/-! ## Errors at other tokens -/

/-- The fault as it is noticed at `t`. -/
def Fault.foundAt (t : Token) : Fault → Fault
  | .expectedExpression _ => .expectedExpression t
  | .unexpectedRest _ => .unexpectedRest t
  | fault => fault

/-- The error that reports the fault at the token under the cursor. -/
def Cursor.raise (c : Cursor) (fault : Fault) : ParseError :=
  ⟨c.position, fault.foundAt c.token⟩

namespace Parser

variable {α β : Type}

/-! ## Parsers that depend on the tokens up to the one they stop at -/

/-- Of two cursors, the second has the tokens that a parser read over at the first, and then the
token at which it stopped. Instead of that one it may have a foreign token, unless the parser found
fault with a token that is not foreign. -/
structure StandsIn (o : Outcome ParseError Cursor α) (c d : Cursor) : Prop where
  read : ∀ i < Event.readCount o.events, (c.skip i).token = (d.skip i).token
  stop : (c.skip (Event.readCount o.events)).token = (d.skip (Event.readCount o.events)).token ∨
    (d.skip (Event.readCount o.events)).token.foreign = true ∧
      ((∃ a, o.result = .ok a) ∨ (c.skip (Event.readCount o.events)).token.foreign = true)

/-- The second outcome is the first one over again, errors being raised where it stopped. -/
structure Mirrors (o other : Outcome ParseError Cursor α) : Prop where
  outline : Event.outline other.events = Event.outline o.events
  result : other.result = o.result.mapError fun e => other.state.raise e.fault

def SteadyAt (p : Parser α) (c : Cursor) : Prop :=
  ∀ d, StandsIn (p.run c) c d → Mirrors (p.run c) (p.run d)

/-- Whatever the parser reads over is not the end of the input. -/
def HeedfulAt (p : Parser α) (c : Cursor) : Prop :=
  ∀ i < Event.readCount (p.run c).events, (c.skip i).token ≠ .endOfInput

structure LocalAt (p : Parser α) (c : Cursor) : Prop where
  steady : p.SteadyAt c
  heedful : p.HeedfulAt c

theorem state_eq_skip (p : Parser α) (c : Cursor) :
    (p.run c).state = c.skip (Event.readCount (p.run c).events) :=
  (p.path c).eq_skip

theorem standsIn_self (o : Outcome ParseError Cursor α) (c : Cursor) : StandsIn o c c :=
  ⟨fun _ _ => rfl, .inl rfl⟩

/-- Every error is raised at the token at which the parser stopped. -/
theorem SteadyAt.error_eq {p : Parser α} {c : Cursor} {e : ParseError}
    (steady : p.SteadyAt c)
    (failed : (p.run c).result = .error e) :
    e = (p.run c).state.raise e.fault := by
  have mirror := (steady c (standsIn_self _ c)).result
  rw [failed] at mirror
  exact Except.error.inj mirror

theorem SteadyAt.state_eq {p : Parser α} {c d : Cursor}
    (steady : p.SteadyAt c)
    (stands : StandsIn (p.run c) c d) :
    (p.run d).state = d.skip (Event.readCount (p.run c).events) := by
  have sameCount := Event.readCount_of_outline (steady d stands).outline
  rw [state_eq_skip p d, sameCount]

/-! ## Building blocks -/

theorem steadyAt_pure (a : α) (c : Cursor) : (pure a : Parser α).SteadyAt c := by
  intro d _
  exact ⟨rfl, rfl⟩

theorem steadyAt_note (n : Note) (c : Cursor) : (note n).SteadyAt c := by
  intro d _
  exact ⟨rfl, rfl⟩

theorem steadyAt_advance (c : Cursor) : advance.SteadyAt c := by
  intro d _
  exact ⟨rfl, rfl⟩

theorem localAt_pure (a : α) (c : Cursor) : (pure a : Parser α).LocalAt c := by
  refine ⟨steadyAt_pure a c, ?_⟩
  intro i below
  cases below

theorem localAt_note (n : Note) (c : Cursor) : (note n).LocalAt c := by
  refine ⟨steadyAt_note n c, ?_⟩
  intro i below
  cases below

theorem localAt_advance {c : Cursor} (notEnd : c.token ≠ .endOfInput) : advance.LocalAt c := by
  refine ⟨steadyAt_advance c, ?_⟩
  intro i below
  have first : i = 0 := Nat.lt_one_iff.mp below
  rw [first]
  exact notEnd

namespace StandsIn

variable {c d state : Cursor} {events : List Event}

theorem of_failed {e : ParseError}
    (stands : StandsIn (⟨.error e, state, events⟩ : Outcome _ _ β) c d) :
    StandsIn (⟨.error e, state, events⟩ : Outcome _ _ α) c d := by
  obtain ⟨read, stop⟩ := stands
  refine ⟨read, ?_⟩
  rcases stop with same | ⟨foreign, ⟨b, impossible⟩ | alsoForeign⟩
  · exact .inl same
  · cases impossible
  · exact .inr ⟨foreign, .inr alsoForeign⟩

/-- What stands in for two steps in a row stands in for the first, which did not fail. -/
theorem of_after {o : Outcome ParseError Cursor β}
    (stands : StandsIn (o.after events) c d)
    (a : α) :
    StandsIn ⟨.ok a, state, events⟩ c d := by
  obtain ⟨read, stop⟩ := stands
  simp only [Outcome.events_after, Event.readCount_append] at read stop
  refine ⟨fun i below => read i (Nat.lt_add_right _ below), ?_⟩
  by_cases further : 0 < Event.readCount o.events
  · have inside := read (Event.readCount events) (Nat.lt_add_of_pos_right further)
    exact .inl inside
  · have noFurther : Event.readCount o.events = 0 := by omega
    rw [noFurther, Nat.add_zero] at stop
    rcases stop with same | ⟨foreign, _⟩
    · exact .inl same
    · exact .inr ⟨foreign, .inl ⟨a, rfl⟩⟩

/-- And, where the first step ended, for the second. -/
theorem skip {o : Outcome ParseError Cursor β} (stands : StandsIn (o.after events) c d) :
    StandsIn o (c.skip (Event.readCount events)) (d.skip (Event.readCount events)) := by
  obtain ⟨read, stop⟩ := stands
  simp only [Outcome.events_after, Event.readCount_append, Cursor.skip_add] at read stop
  refine ⟨?_, stop⟩
  intro i below
  have inside := read (Event.readCount events + i) (Nat.add_lt_add_left below _)
  rw [Cursor.skip_add, Cursor.skip_add] at inside
  exact inside

end StandsIn

theorem SteadyAt.bind {p : Parser α} {next : α → Parser β} {c : Cursor}
    (first : p.SteadyAt c)
    (second : ∀ a, (p.run c).result = .ok a → (next a).SteadyAt (p.run c).state) :
    (p >>= next).SteadyAt c := by
  intro d stands
  have mirrored := first d
  have reached := state_eq_skip p c
  have otherReached := state_eq_skip p d
  rw [run_bind, Activity.bind_apply] at stands ⊢
  rw [Activity.bind_apply]
  cases shape : p.run c with
  | mk result state events =>
      cases otherShape : p.run d with
      | mk otherResult otherState otherEvents =>
          rw [shape] at stands second reached mirrored
          rw [otherShape] at mirrored otherReached
          cases result with
          | error e =>
              obtain ⟨outline, mirror⟩ := mirrored stands.of_failed
              have same : otherResult = .error (otherState.raise e.fault) := mirror
              subst same
              exact ⟨outline, rfl⟩
          | ok a =>
              rw [Activity.andThen_ok] at stands
              obtain ⟨outline, mirror⟩ := mirrored (stands.of_after a)
              have same : otherResult = .ok a := mirror
              subst same
              have sameCount := Event.readCount_of_outline outline
              rw [sameCount] at otherReached
              have secondStands := stands.skip
              rw [← reached, ← otherReached] at secondStands
              obtain ⟨further, rest⟩ := second a rfl otherState secondStands
              refine ⟨?_, rest⟩
              rw [Activity.andThen_ok, Activity.andThen_ok, Outcome.events_after,
                Outcome.events_after, Event.outline_append, Event.outline_append, outline, further]

theorem HeedfulAt.bind {p : Parser α} {next : α → Parser β} {c : Cursor}
    (first : p.HeedfulAt c)
    (second : ∀ a, (p.run c).result = .ok a → (next a).HeedfulAt (p.run c).state) :
    (p >>= next).HeedfulAt c := by
  intro i below
  have inFirst := first i
  have reached := state_eq_skip p c
  rw [run_bind, Activity.bind_apply] at below
  cases shape : p.run c with
  | mk result state events =>
      rw [shape] at below second inFirst reached
      cases result with
      | error e => exact inFirst below
      | ok a =>
          rw [Activity.andThen_ok, Outcome.events_after, Event.readCount_append] at below
          by_cases early : i < Event.readCount events
          · exact inFirst early
          · have late : i - Event.readCount events < Event.readCount ((next a).run state).events :=
              by omega
            have split : i = Event.readCount events + (i - Event.readCount events) := by omega
            have notEnd := second a rfl (i - Event.readCount events) late
            rw [reached, ← Cursor.skip_add, ← split] at notEnd
            exact notEnd

theorem LocalAt.bind {p : Parser α} {next : α → Parser β} {c : Cursor}
    (first : p.LocalAt c)
    (second : ∀ a, (p.run c).result = .ok a → (next a).LocalAt (p.run c).state) :
    (p >>= next).LocalAt c := by
  refine ⟨first.steady.bind ?_, first.heedful.bind ?_⟩
  · intro a read
    exact (second a read).steady
  · intro a read
    exact (second a read).heedful

theorem LocalAt.map {p : Parser α} {c : Cursor} (f : α → β) (isLocal : p.LocalAt c) :
    (f <$> p).LocalAt c := by
  rw [map_eq_pure_bind]
  exact isLocal.bind fun a _ => localAt_pure (f a) _

/-- Failing, with a fault that quotes no other token than the one under the cursor. -/
theorem localAt_failing {fault : Token → Fault} (c : Cursor)
    (quotes : ∀ t u, (fault t).foundAt u = fault u) :
    (token >>= fun t => (fail (fault t) : Parser α)).LocalAt c := by
  constructor
  · intro d _
    rw [run_token_bind, run_token_bind]
    have quoted := quotes c.token d.token
    refine ⟨rfl, ?_⟩
    rw [fail, fail, ← quoted]
    rfl
  · intro i below
    rw [run_token_bind] at below
    cases below

theorem token_bind_const (p : Parser α) : (token >>= fun _ => p) = p := by
  apply eq_of_run
  funext c
  rw [run_token_bind]

theorem localAt_fail {fault : Fault} (c : Cursor) (quotesNone : ∀ t, fault.foundAt t = fault) :
    (fail fault : Parser α).LocalAt c := by
  rw [← token_bind_const (fail fault)]
  exact localAt_failing c fun _ u => quotesNone u

/-- Looking at a token is local if nothing special is done at foreign tokens: at the token there
is, the parser reads on, or does the same as at foreign ones. -/
theorem localAt_peek {next q : Token → Parser α} {c : Cursor}
    (otherwise : (token >>= q).LocalAt c)
    (atForeign : ∀ t, t.foreign = true → next t = q t)
    (here : next c.token = q c.token ∨
      (next c.token).LocalAt c ∧ 0 < Event.readCount ((next c.token).run c).events) :
    (token >>= next).LocalAt c := by
  rcases here with same | ⟨isLocal, reads⟩
  · have sameRun : (token >>= next).run c = (token >>= q).run c := by
      rw [run_token_bind, run_token_bind, same]
    constructor
    · intro d stands
      rw [sameRun] at stands ⊢
      have alike : next d.token = q d.token := by
        by_cases further : 0 < Event.readCount ((token >>= q).run c).events
        · have sameToken : c.token = d.token := stands.read 0 further
          rw [← sameToken, same]
        · have stop := stands.stop
          have none : Event.readCount ((token >>= q).run c).events = 0 := by omega
          rw [none] at stop
          rcases stop with sameToken | ⟨foreign, _⟩
          · have sameHere : c.token = d.token := sameToken
            rw [← sameHere, same]
          · exact atForeign d.token foreign
      have mirror := otherwise.steady d stands
      rw [run_token_bind next, alike, ← run_token_bind q]
      exact mirror
    · intro i below
      rw [sameRun] at below
      exact otherwise.heedful i below
  · constructor
    · intro d stands
      rw [run_token_bind] at stands ⊢
      have sameToken : c.token = d.token := stands.read 0 reads
      rw [run_token_bind, ← sameToken]
      exact isLocal.steady d stands
    · intro i below
      rw [run_token_bind] at below
      exact isLocal.heedful i below

theorem readCount_advance_bind (next : Unit → Parser α) (c : Cursor) :
    0 < Event.readCount ((advance >>= next).run c).events := by
  rw [run_bind, Activity.bind_apply]
  have one : Event.readCount [.read c.advance.current] = 1 := rfl
  simp only [advance, Activity.andThen_ok, Outcome.events_after, Event.readCount_append, one]
  omega

/-! ## The rules of the grammar -/

theorem ne_of_foreign {t u : Token} (foreign : t.foreign = true) (native : u.foreign = false) :
    t ≠ u := by
  intro same
  rw [same, native] at foreign
  cases foreign

theorem localAt_expect {expected : Token} {fault : Fault} (c : Cursor)
    (native : expected.foreign = false)
    (quotesNone : ∀ t, fault.foundAt t = fault) :
    (expect expected fault).LocalAt c := by
  have otherwise : (token >>= fun _ => (fail fault : Parser Unit)).LocalAt c := by
    rw [token_bind_const]
    exact localAt_fail c quotesNone
  refine localAt_peek otherwise ?_ ?_
  · intro t foreign
    rw [if_neg (ne_of_foreign foreign native)]
  · by_cases found : c.token = expected
    · rw [if_pos found]
      have notEnd : c.token ≠ .endOfInput := by
        rw [found]
        exact (ne_of_foreign rfl native).symm
      exact .inr ⟨localAt_advance notEnd, Nat.one_pos⟩
    · rw [if_neg found]
      exact .inl rfl

theorem localAt_name? (c : Cursor) : name?.LocalAt c := by
  have otherwise : (token >>= fun _ => (pure none : Parser (Option String))).LocalAt c := by
    rw [token_bind_const]
    exact localAt_pure none c
  refine localAt_peek otherwise ?_ ?_
  · intro t foreign
    cases t with
    | identifier x => cases foreign
    | _ => rfl
  · cases found : c.token with
    | identifier x =>
        have notEnd : c.token ≠ .endOfInput := by simp [found]
        refine .inr ⟨(localAt_advance notEnd).bind ?_, readCount_advance_bind _ c⟩
        intro _ _
        exact localAt_pure (some x) _
    | _ => exact .inl rfl

theorem localAt_name {missing : Fault} (c : Cursor)
    (quotesNone : ∀ t, missing.foundAt t = missing) :
    (name missing).LocalAt c := by
  refine (localAt_name? c).bind ?_
  intro found _
  cases found with
  | none => exact localAt_fail _ quotesNone
  | some x => exact localAt_pure x _

theorem localAt_many {lead : Token → Option β} {item : β → Parser α}
    (notAtForeign : ∀ t, t.foreign = true → lead t = none)
    (items : ∀ b c, (item b).LocalAt c)
    (c : Cursor) :
    (many lead item).LocalAt c := by
  induction size : c.size using Nat.strongRecOn generalizing c with
  | ind n ih =>
      rw [many_eq]
      have otherwise : (token >>= fun _ => (pure [] : Parser (List α))).LocalAt c := by
        rw [token_bind_const]
        exact localAt_pure [] c
      refine localAt_peek otherwise ?_ ?_
      · intro t foreign
        rw [notAtForeign t foreign]
      · cases leads : lead c.token with
        | none => exact .inl rfl
        | some b =>
            have notEnd : c.token ≠ .endOfInput := by
              intro atEnd
              rw [atEnd, notAtForeign .endOfInput rfl] at leads
              cases leads
            simp only [notEnd, if_false]
            refine .inr ⟨LocalAt.bind ?_ ?_, ?_⟩
            · refine (localAt_advance notEnd).bind ?_
              intro _ _
              exact items b _
            · intro a _
              have shorter := size_afterNext_lt (item b) notEnd
              rw [size] at shorter
              exact (ih _ shorter _ rfl).map (a :: ·)
            · rw [afterNext, bind_assoc]
              exact readCount_advance_bind _ c

theorem localAt_repeated {item : Parser α} (items : ∀ c, item.LocalAt c) (c : Cursor) :
    (many comma fun _ => item).LocalAt c := by
  refine localAt_many ?_ (fun _ => items) c
  intro t foreign
  have notComma : t ≠ .symbol ',' := ne_of_foreign foreign rfl
  rw [comma, if_neg notComma]

variable {inner : Parser Expression}

/-- What comes after the opening parenthesis of a group. -/
theorem localAt_grouped (inside : ∀ c, inner.LocalAt c) (c : Cursor) :
    (do
      let expression ← inner
      expect (.symbol ')') .unclosedGroup
      return expression).LocalAt c := by
  refine (inside c).bind fun e _ => ?_
  refine (localAt_expect _ rfl fun _ => rfl).bind fun _ _ => ?_
  exact localAt_pure e _

theorem localAt_group (inside : ∀ c, inner.LocalAt c) {c : Cursor}
    (notEnd : c.token ≠ .endOfInput) :
    (group inner).LocalAt c :=
  (localAt_advance notEnd).bind fun _ _ => localAt_grouped inside _

theorem localAt_arguments (inside : ∀ c, inner.LocalAt c) (c : Cursor) :
    (arguments inner).LocalAt c := by
  have listed : (inner >>= fun first => do
      let further ← many comma fun _ => inner
      expect (.symbol ')') .unclosedArguments
      return first :: further).LocalAt c := by
    refine (inside c).bind fun first _ => ?_
    refine (localAt_repeated inside _).bind fun further _ => ?_
    refine (localAt_expect _ rfl fun _ => rfl).bind fun _ _ => ?_
    exact localAt_pure (first :: further) _
  have otherwise := listed
  rw [← token_bind_const (inner >>= _)] at otherwise
  refine localAt_peek otherwise ?_ ?_
  · intro t foreign
    have notClosing : t ≠ .symbol ')' := ne_of_foreign foreign rfl
    rw [if_neg notClosing]
  · by_cases closes : c.token = .symbol ')'
    · rw [if_pos closes]
      have notEnd : c.token ≠ .endOfInput := by simp [closes]
      refine .inr ⟨(localAt_advance notEnd).bind fun _ _ => ?_, readCount_advance_bind _ c⟩
      exact localAt_pure [] _
    · rw [if_neg closes]
      exact .inl rfl

theorem localAt_expected (c : Cursor) :
    (token >>= fun t => (fail (.expectedExpression t) : Parser α)).LocalAt c :=
  localAt_failing c fun _ _ => rfl

/-- What follows the name in a variable or a call. -/
theorem localAt_called (inside : ∀ c, inner.LocalAt c) (x : String) (c : Cursor) :
    (token >>= fun t =>
      if t = .symbol '(' then do
        advance
        return Expression.call x (← arguments inner)
      else
        return Expression.var x).LocalAt c := by
  have otherwise : (token >>= fun _ => (pure (.var x) : Parser Expression)).LocalAt c := by
    rw [token_bind_const]
    exact localAt_pure _ c
  refine localAt_peek otherwise ?_ ?_
  · intro t foreign
    have notOpening : t ≠ .symbol '(' := ne_of_foreign foreign rfl
    rw [if_neg notOpening]
  · by_cases opens : c.token = .symbol '('
    · rw [if_pos opens]
      have notEnd : c.token ≠ .endOfInput := by simp [opens]
      refine .inr ⟨(localAt_advance notEnd).bind fun _ _ => ?_, readCount_advance_bind _ c⟩
      exact (localAt_arguments inside _).bind fun es _ => localAt_pure (Expression.call x es) _
    · rw [if_neg opens]
      exact .inl rfl

theorem localAt_application (inside : ∀ c, inner.LocalAt c) (c : Cursor) :
    (application inner).LocalAt c := by
  refine localAt_peek (localAt_expected c) ?_ ?_
  · intro t foreign
    cases t with
    | identifier x => cases foreign
    | _ => rfl
  · cases found : c.token with
    | identifier x =>
        have notEnd : c.token ≠ .endOfInput := by simp [found]
        refine .inr ⟨(localAt_advance notEnd).bind fun _ _ => ?_, readCount_advance_bind _ c⟩
        exact localAt_called inside x _
    | _ => exact .inl rfl

theorem localAt_quantification (inside : ∀ c, inner.LocalAt c) (c : Cursor) :
    (quantification inner).LocalAt c := by
  refine localAt_peek (localAt_expected c) ?_ ?_
  · intro t foreign
    cases t with
    | quantifier kind => cases foreign
    | _ => rfl
  · cases found : c.token with
    | quantifier kind =>
        have notEnd : c.token ≠ .endOfInput := by simp [found]
        refine .inr ⟨(localAt_advance notEnd).bind fun _ _ => ?_, readCount_advance_bind _ c⟩
        refine (localAt_name _ fun _ => rfl).bind fun x _ => ?_
        refine (localAt_expect _ rfl fun _ => rfl).bind fun _ _ => ?_
        exact (inside _).bind fun body _ => localAt_pure (Expression.quantified kind x body) _
    | _ => exact .inl rfl

theorem localAt_operand (inside : ∀ c, inner.LocalAt c) (c : Cursor) :
    (operand inner).LocalAt c := by
  refine localAt_peek (localAt_expected c) ?_ ?_
  · intro t foreign
    split
    · cases foreign
    · cases foreign
    · cases foreign
    · rfl
  · split
    · next kind found =>
        have reads : 0 < Event.readCount ((quantification inner).run c).events := by
          rw [quantification, run_token_bind, found]
          exact readCount_advance_bind _ c
        exact .inr ⟨localAt_quantification inside c, reads⟩
    · next x found =>
        have reads : 0 < Event.readCount ((application inner).run c).events := by
          rw [application, run_token_bind, found]
          exact readCount_advance_bind _ c
        exact .inr ⟨localAt_application inside c, reads⟩
    · next found =>
        have notEnd : c.token ≠ .endOfInput := by simp [found]
        exact .inr ⟨localAt_group inside notEnd, readCount_advance_bind _ c⟩
    · exact .inl rfl

theorem localAt_continuation {table : Precedence} {p : Parser Expression} {least : Int32}
    (operands : ∀ c, p.LocalAt c)
    (left : Expression)
    (c : Cursor) :
    (continuation table p least left).LocalAt c := by
  have linked : (links table least p).LocalAt c := by
    refine localAt_many ?_ ?_ c
    · intro t foreign
      cases t with
      | connective kind => cases foreign
      | _ => rfl
    · intro kind m
      exact (operands m).bind fun e _ => localAt_pure (Link.mk kind e) _
  exact linked.bind fun values _ => localAt_pure (Chain.tree table least left values) _

theorem localAt_chain {table : Precedence} {p : Parser Expression}
    (operands : ∀ c, p.LocalAt c)
    (c : Cursor) :
    (chain table p).LocalAt c :=
  (operands c).bind fun left _ => localAt_continuation operands left _

theorem localAt_primaryWithin (table : Precedence) (room : Nat) (c : Cursor) :
    (primaryWithin table room).LocalAt c := by
  induction room generalizing c with
  | zero => exact localAt_fail c fun _ => rfl
  | succ room ih => exact localAt_operand (localAt_chain ih) c

theorem localAt_chainWithin (table : Precedence) (room : Nat) (c : Cursor) :
    (chain table (primaryWithin table room)).LocalAt c :=
  localAt_chain (localAt_primaryWithin table room) c

theorem localAt_expression (table : Precedence) (c : Cursor) :
    (expression table).LocalAt c :=
  localAt_chainWithin table nestingLimit c

theorem localAt_parameters (c : Cursor) : parameters.LocalAt c := by
  refine (localAt_name? c).bind fun found _ => ?_
  cases found with
  | none => exact localAt_pure [] _
  | some x =>
      have names : ∀ m, (name .expectedParameter).LocalAt m := fun m =>
        localAt_name m fun _ => rfl
      exact (localAt_repeated names _).bind fun later _ => localAt_pure (x :: later) _

theorem localAt_prototype (c : Cursor) : prototype.LocalAt c := by
  refine (localAt_name c fun _ => rfl).bind fun x _ => ?_
  refine (localAt_expect _ rfl fun _ => rfl).bind fun _ _ => ?_
  refine (localAt_parameters _).bind fun parameterNames _ => ?_
  refine (localAt_expect _ rfl fun _ => rfl).bind fun _ _ => ?_
  exact (localAt_note _ _).bind fun _ _ => localAt_pure (Prototype.mk x parameterNames) _

/-- What comes after the keyword of a definition. -/
theorem localAt_defined (table : Precedence) (room : Nat) (c : Cursor) :
    (do
      let head ← prototype
      let body ← chain table (primaryWithin table room)
      note (.readDefinition head.name)
      return Definition.mk head body).LocalAt c := by
  refine (localAt_prototype c).bind fun head _ => ?_
  refine (localAt_chainWithin table room _).bind fun body _ => ?_
  exact (localAt_note _ _).bind fun _ _ => localAt_pure (Definition.mk head body) _

theorem localAt_definitionWithin (table : Precedence) (room : Nat) {c : Cursor}
    (notEnd : c.token ≠ .endOfInput) :
    (definitionWithin table room).LocalAt c :=
  (localAt_advance notEnd).bind fun _ _ => localAt_defined table room _

theorem localAt_definition (table : Precedence) {c : Cursor} (notEnd : c.token ≠ .endOfInput) :
    (definition table).LocalAt c :=
  localAt_definitionWithin table nestingLimit notEnd

/-- The token in place of the keyword is read over unseen, even if it is the end of the input. -/
theorem steadyAt_definition (table : Precedence) (c : Cursor) : (definition table).SteadyAt c :=
  (steadyAt_advance c).bind fun _ _ => (localAt_defined table nestingLimit _).steady

/-! ## Whole texts -/

theorem result_advance_bind (next : Unit → Parser α) (c : Cursor) :
    ((advance >>= next).run c).result = ((next ()).run c.advance).result := rfl

theorem result_whole (p : Parser α) (c : Cursor) :
    ((whole p).run c).result = (p.run c.advance).result.bind fun a =>
      if (p.run c.advance).state.token = .endOfInput then .ok a
      else .error ((p.run c.advance).state.raise
        (.unexpectedRest (p.run c.advance).state.token)) := by
  simp only [whole, afterNext, bind_assoc]
  rw [result_advance_bind, run_bind, Activity.bind_apply]
  cases shape : p.run c.advance with
  | mk result d events =>
      cases result with
      | error e => rfl
      | ok a =>
          rw [Activity.andThen_ok, Outcome.result_after, run_token_bind]
          cases found : d.token with
          | endOfInput => rfl
          | _ => simp [Except.bind, found, fail, Cursor.raise, Fault.foundAt]

end Parser

end FormulaReader
