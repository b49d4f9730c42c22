import FormulaReader.Proofs.Counting
import FormulaReader.Proofs.Layout

/-!
Calls: a parser can be asked for a token or for any rule of the grammar, in any order and whatever
the current token is. The lexemes that are read on the way are those that as many calls of the
scanner give, and each rule does the same with and without books.
-/

namespace FormulaReader

/-! ## The lexemes that are read -/

namespace Event

def lexeme? : Event → Option Lexeme
  | .read lexeme => some lexeme
  | _ => none

def lexemes (events : List Event) : List Lexeme :=
  events.filterMap lexeme?

@[simp] theorem lexemes_read (lexeme : Lexeme) : lexemes [.read lexeme] = [lexeme] := rfl

@[simp] theorem lexemes_noted (n : Note) : lexemes [.noted n] = [] := rfl

@[simp] theorem lexemes_append (earlier later : List Event) :
    lexemes (earlier ++ later) = lexemes earlier ++ lexemes later :=
  List.filterMap_append

theorem flatMap_pulled (events : List Event) :
    events.flatMap pulled = (lexemes events).flatMap Lexeme.pulled := by
  induction events with
  | nil => rfl
  | cons event later ih =>
      cases event with
      | read lexeme => exact congrArg (lexeme.pulled ++ ·) ih
      | _ => exact ih

end Event

theorem Cursor.Path.length_lexemes {c d : Cursor} {events : List Event}
    (path : c.Path events d) :
    (Event.lexemes events).length = Event.readCount events := by
  induction path with
  | stay => rfl
  | advance _ ih =>
      rw [Event.lexemes_append, List.length_append, ih, Event.readCount_append]
      rfl
  | note n _ ih =>
      rw [Event.lexemes_append, List.length_append, ih, Event.readCount_append]
      rfl

/-! ## Calls of the scanner -/

namespace Scanner

/-- The scanner after `k` calls. -/
def after (s : Scanner) : Nat → Scanner
  | 0 => s
  | k + 1 => s.next.2.after k

/-- The lexemes that `k` calls give. -/
def calls (s : Scanner) : Nat → List Lexeme
  | 0 => []
  | k + 1 => s.next.1 :: s.next.2.calls k

theorem next_of_stop {s : Scanner} (stop : (s.lookahead.stretch isBlank s.feed).stop = none) :
    s.next = (⟨.endOfInput, s.position.after (s.lookahead.stretch isBlank s.feed).taken,
        (s.lookahead.stretch isBlank s.feed).pulled⟩,
      ⟨.read none, s.position.after (s.lookahead.stretch isBlank s.feed).taken,
        (s.lookahead.stretch isBlank s.feed).rest⟩) := by
  simp only [next, stop]

/-- At the end of the input only blanks are left. -/
theorem stretch_of_atEnd {s : Scanner} (atEnd : s.next.1.token = .endOfInput) :
    (s.lookahead.stretch isBlank s.feed).stop = none ∧
      (s.lookahead.stretch isBlank s.feed).taken = s.characters := by
  have finished : s.characters.dropWhile isBlank = [] := by
    apply Classical.byContradiction
    intro more
    exact (finds_next s more).token atEnd
  have parts := List.takeWhile_append_dropWhile (p := isBlank) (l := s.characters)
  rw [finished, List.append_nil] at parts
  obtain ⟨taken, stop, _⟩ := s.lookahead.stretch_characters isBlank s.feed
  exact ⟨stop.trans (congrArg List.head? finished), taken.trans parts⟩

/-- From the end of the input on, nothing changes and nothing is pulled. -/
theorem next_next_of_atEnd {s : Scanner} (atEnd : s.next.1.token = .endOfInput) :
    s.next.2.next = (s.next.1.endAfter, s.next.2) := by
  rw [next_of_stop (stretch_of_atEnd atEnd).1]
  rfl

theorem lexemes_of_atEnd {s : Scanner} (atEnd : s.next.1.token = .endOfInput) :
    s.lexemes = [s.next.1] := by
  rw [lexemes, if_pos atEnd]

theorem lexemes_of_notEnd {s : Scanner} (notEnd : s.next.1.token ≠ .endOfInput) :
    s.lexemes = s.next.1 :: s.next.2.lexemes := by
  rw [lexemes, if_neg notEnd]

theorem exists_lexemes_eq_cons (s : Scanner) : ∃ later, s.lexemes = s.next.1 :: later := by
  by_cases atEnd : s.next.1.token = .endOfInput
  · exact ⟨[], lexemes_of_atEnd atEnd⟩
  · exact ⟨_, lexemes_of_notEnd atEnd⟩

/-- Two lexemes on, it makes no difference whether the first one was called for before. -/
theorem advance_advance_before (s : Scanner) :
    (Cursor.before s.lexemes).advance.advance = (Cursor.before s.next.2.lexemes).advance := by
  by_cases atEnd : s.next.1.token = .endOfInput
  · have again := next_next_of_atEnd atEnd
    have stillAtEnd : s.next.2.next.1.token = .endOfInput := by
      rw [again]
      rfl
    rw [lexemes_of_atEnd atEnd, lexemes_of_atEnd stillAtEnd, again]
    rfl
  · obtain ⟨later, shape⟩ := s.next.2.exists_lexemes_eq_cons
    rw [lexemes_of_notEnd atEnd, shape]
    rfl

/-- One more call gives the lexeme to which the cursor comes. -/
theorem calls_succ (s : Scanner) (k : Nat) :
    s.calls (k + 1) = s.calls k ++ [((Cursor.before s.lexemes).skip (k + 1)).current] := by
  induction k generalizing s with
  | zero =>
      obtain ⟨later, shape⟩ := s.exists_lexemes_eq_cons
      rw [shape]
      rfl
  | succ k ih =>
      have same : (Cursor.before s.lexemes).skip (k + 2) =
          (Cursor.before s.next.2.lexemes).skip (k + 1) :=
        congrArg (Cursor.skip · k) s.advance_advance_before
      rw [calls, ih, same]
      rfl

/-- Calls of the scanner give the lexemes, as far as these go. -/
theorem calls_length_eq (s : Scanner) {front : List Lexeme} (isPrefix : front <+: s.lexemes) :
    s.calls front.length = front := by
  induction front generalizing s with
  | nil => rfl
  | cons lexeme later ih =>
      by_cases atEnd : s.next.1.token = .endOfInput
      · rw [lexemes_of_atEnd atEnd, List.cons_prefix_cons] at isPrefix
        obtain ⟨rfl, nothing⟩ := isPrefix
        rw [List.prefix_nil.mp nothing]
        rfl
      · rw [lexemes_of_notEnd atEnd, List.cons_prefix_cons] at isPrefix
        obtain ⟨rfl, further⟩ := isPrefix
        rw [List.length_cons, calls, ih s.next.2 further]

end Scanner

/-- What is read along a path from in front of all lexemes is what as many calls give, and the
cursor stands at the last of it. -/
theorem Cursor.Path.lexemes_eq {s : Scanner} {events : List Event} {d : Cursor}
    (path : (before s.lexemes).Path events d) :
    Event.lexemes events = s.calls (Event.lexemes events).length ∧
      d.current = (Event.lexemes events).getLastD ⟨.symbol ' ', .first, []⟩ := by
  have along : Event.lexemes events = s.calls (Event.lexemes events).length ∧
      d = (before s.lexemes).skip (Event.lexemes events).length ∧
      d.current = (Event.lexemes events).getLastD ⟨.symbol ' ', .first, []⟩ := by
    induction path with
    | stay => exact ⟨rfl, rfl, rfl⟩
    | @advance events d _ ih =>
        obtain ⟨calls, reached, _⟩ := ih
        have further : d.advance = (before s.lexemes).skip ((Event.lexemes events).length + 1) := by
          rw [Cursor.skip_succ, ← reached]
        rw [Event.lexemes_append, Event.lexemes_read, List.length_append, List.length_singleton,
          Scanner.calls_succ, ← further, ← calls]
        exact ⟨rfl, rfl, by simp⟩
    | note n _ ih =>
        rw [Event.lexemes_append, Event.lexemes_noted, List.append_nil]
        exact ih
  exact ⟨along.1, along.2.2⟩

/-! ## Calls of a parser -/

/-- What a parser can be asked for. -/
inductive Call where
  | next
  | primary
  | group
  | application
  | quantification
  | expression
  | continuation (least : Int32) (left : Expression)
  | prototype
  | definition

/-- What a parser returns. -/
inductive Answer where
  | moved
  | expression (e : Expression)
  | prototype (p : Prototype)
  | definition (d : Definition)
deriving DecidableEq

namespace Call

/-- The call of a plain parser. -/
def parser (table : Precedence) : Call → Parser Answer
  | next => do
      Parser.advance
      return .moved
  | primary => do return .expression (← Parser.primary table)
  | group => do return .expression (← Parser.group (Parser.expression table))
  | application => do return .expression (← Parser.application (Parser.expression table))
  | quantification => do return .expression (← Parser.quantification (Parser.expression table))
  | expression => do return .expression (← Parser.expression table)
  | continuation least left => do
      return .expression (← Parser.continuation table (Parser.primary table) least left)
  | prototype => do return .prototype (← Parser.prototype)
  | definition => do return .definition (← Parser.definition table)

/-- The call of a parser that counts and has its guard on. -/
def counter : Call → Counter Answer
  | next => do
      Steps.advance
      return .moved
  | primary => do return .expression (← Counter.primary true)
  | group => do return .expression (← Rules.group (Counter.expression true))
  | application => do return .expression (← Rules.application (Counter.expression true))
  | quantification => do return .expression (← Rules.quantification (Counter.expression true))
  | expression => do return .expression (← Counter.expression true)
  | continuation least left => do
      return .expression (← Rules.continuation Counter.table (Counter.primary true) least left)
  | prototype => do return .prototype (← Rules.prototype)
  | definition => do return .definition (← Counter.definition true)

/-- The call of a plain parser with some room for nesting. -/
def parserWithin (table : Precedence) (room : Nat) : Call → Parser Answer :=
  let operand := Parser.primaryWithin table room
  let inner := Parser.chain table operand
  fun
  | next => do
      Parser.advance
      return .moved
  | primary => do return .expression (← operand)
  | group => do return .expression (← Parser.group inner)
  | application => do return .expression (← Parser.application inner)
  | quantification => do return .expression (← Parser.quantification inner)
  | expression => do return .expression (← inner)
  | continuation least left => do
      return .expression (← Parser.continuation table operand least left)
  | prototype => do return .prototype (← Parser.prototype)
  | definition => do return .definition (← Parser.definitionWithin table room)

theorem parser_eq_parserWithin (call : Call) (table : Precedence) :
    call.parser table = call.parserWithin table Parser.nestingLimit := by
  cases call <;> rfl

/-- With some primaries open, a call does what the plain one does that has room for the others. -/
theorem followsAtWithin (call : Call) (table : Precedence) (opened : Nat) (t : Tally) :
    Counter.FollowsAt true opened table call.counter
      (call.parserWithin table (Parser.nestingLimit - opened)) t := by
  have kept := Counter.followsAt_congruence true opened table
  have inside : ∀ u, Counter.FollowsAt true opened table (Counter.expression true)
      (Parser.chain table (Parser.primaryWithin table (Parser.nestingLimit - opened))) u :=
    Counter.followsAt_chain true opened
  have primary : ∀ u, Counter.FollowsAt true opened table (Counter.primary true)
      (Parser.primaryWithin table (Parser.nestingLimit - opened)) u := by
    intro u isOpened
    have rule := @Counter.followsAt_primary table true u
    rw [isOpened] at rule
    exact rule isOpened
  cases call with
  | next => exact kept.bind (kept.advance t) fun _ u _ => kept.pure _ u
  | primary => exact kept.bind (primary t) fun _ u _ => kept.pure _ u
  | group => exact kept.bind (kept.group fun u _ => inside u) fun _ u _ => kept.pure _ u
  | application =>
      have rule := kept.application (s := t) fun u _ => inside u
      rw [Parser.rules_application] at rule
      exact kept.bind rule fun _ u _ => kept.pure _ u
  | quantification =>
      exact kept.bind (kept.quantification fun u _ => inside u) fun _ u _ => kept.pure _ u
  | expression => exact kept.bind (inside t) fun _ u _ => kept.pure _ u
  | continuation least left =>
      have rule := kept.continuation (s := t) Counter.followsAt_table (fun u _ => primary u)
        least left
      rw [Parser.rules_continuation] at rule
      exact kept.bind rule fun _ u _ => kept.pure _ u
  | prototype => exact kept.bind kept.prototype fun _ u _ => kept.pure _ u
  | definition => exact kept.bind (kept.definition inside) fun _ u _ => kept.pure _ u

/-- Both do the same, and the one that counts keeps its books. -/
theorem followsAt (call : Call) (table : Precedence) (t : Tally) :
    Counter.FollowsAt true 0 table call.counter (call.parser table) t := by
  rw [parser_eq_parserWithin]
  exact call.followsAtWithin table 0 t

/-! ## One call after another -/

/-- The cursor after calls of a plain parser, whether they fail or not, and the events on the
way. -/
def readAll (table : Precedence) : List Call → Cursor → Cursor × List Event
  | [], c => (c, [])
  | call :: later, c =>
      let first := (call.parser table).run c
      let rest := readAll table later first.state
      (rest.1, first.events ++ rest.2)

/-- The same for a parser that counts. -/
def runAll : List Call → Tally → Tally × List Event
  | [], t => (t, [])
  | call :: later, t =>
      let first := call.counter.run t
      let rest := runAll later first.state
      (rest.1, first.events ++ rest.2)

theorem path_readAll (table : Precedence) (calls : List Call) (c : Cursor) :
    c.Path (readAll table calls c).2 (readAll table calls c).1 := by
  induction calls generalizing c with
  | nil => exact .stay
  | cons call later ih => exact ((call.parser table).path c).trans (ih _)

end Call

end FormulaReader
