import Mathlib.Data.List.Basic
import FormulaReader.Proofs.Pace
import FormulaReader.Proofs.Pulling
import FormulaReader.Proofs.Succession

/-!
Progress: how much is read. Every turn uses up the segment that it is for, whether it succeeds or
not, so a session comes to the end and calls for each lexeme once. Only where an error at the end of
the input is dropped, the end is called for a second time.
-/

namespace FormulaReader

/-! ## Counting lexemes -/

theorem Event.lexemes_wrote (bytes : List UInt8) : lexemes (bytes.map .wrote) = [] := by
  induction bytes with
  | nil => rfl
  | cons byte rest ih => exact ih

theorem SessionOptions.lexemes_asking (options : SessionOptions) :
    Event.lexemes options.asking = [] := by
  rw [asking]
  cases options.prompt with
  | none => rfl
  | some prompt =>
      rw [Event.lexemes_append, Event.lexemes_wrote]
      rfl

/-- Nothing is read to write the report. -/
theorem TurnRead.lexemes_script (found : TurnRead) (showTree : Bool) :
    Event.lexemes (found.script showTree) =
      Event.lexemes (found.events ++ (found.turn.close.run found.cursor).events) := by
  rw [script, Event.lexemes_append, Event.lexemes_append, Event.lexemes_wrote, List.nil_append,
    Event.lexemes_append]

/-! ## Turns -/

namespace Turn

theorem length_lexemes_close {turn : Turn} (notItem : ∀ parsed, turn ≠ .item parsed) (c : Cursor) :
    (Event.lexemes (turn.close.run c).events).length = 1 := by
  cases turn with
  | item parsed => exact absurd rfl (notItem parsed)
  | _ => rfl

/-- A turn goes on from the cursor by as many lexemes as it reads, at least by one. -/
theorem progresses (table : Precedence) (expressions showTree : Bool) {c : Cursor}
    (notEnd : c.token ≠ .endOfInput) :
    let found := read table expressions c
    let count := (Event.lexemes (found.script showTree)).length
    0 < count ∧ found.turn.closed found.cursor = c.skip count ∧
      (found.turn.closed found.cursor).size < c.size := by
  intro found count
  have path : c.Path (found.events ++ (found.turn.close.run found.cursor).events)
      (found.turn.closed found.cursor) :=
    (path_read table expressions c).trans (found.turn.close.path found.cursor)
  have counted : count = Event.readCount (found.events ++
      (found.turn.close.run found.cursor).events) := by
    rw [← path.length_lexemes, ← found.lexemes_script showTree]
  have reached : found.turn.closed found.cursor = c.skip count := by
    rw [counted]
    exact path.eq_skip
  have smaller : (found.turn.closed found.cursor).size < c.size :=
    size_closed_lt table expressions notEnd
  refine ⟨?_, reached, smaller⟩
  apply Nat.pos_of_ne_zero
  intro nothing
  rw [reached, nothing] at smaller
  exact Nat.lt_irrefl _ smaller

variable {table : Precedence} {finish : Lexeme} {found : TurnRead} {segment rest : List Lexeme}

/-- What a turn reads is as long as its segment, and longer by one if it blames the end. -/
theorem Stops.length_lexemes {c : Cursor}
    (stops : Stops finish found segment rest)
    (path : c.Path found.events found.cursor)
    (fresh : finish ∉ segment)
    (showTree : Bool) :
    (Event.lexemes (found.script showTree)).length =
      segment.length + found.blamed?.toList.count finish := by
  have counted := path.length_lexemes
  rw [found.lexemes_script, Event.lexemes_append, List.length_append, counted]
  cases stops with
  | item length => rw [length]; rfl
  | @rejected e front last _ _ place length =>
      have other : last ≠ finish := by
        rintro rfl
        exact fresh (by simp)
      have unblamed : [last].count finish = 0 := List.count_eq_zero.mpr (by simpa using other.symm)
      rw [length, length_lexemes_close (by simp), List.length_append]
      exact congrArg (front.length + 1 + ·) unblamed.symm
  | rejectedAtEnd place length =>
      have blamed : [finish].count finish = 1 := List.count_singleton_self
      rw [length, length_lexemes_close (by simp)]
      exact congrArg (segment.length + ·) blamed.symm
  | separator => rw [length_lexemes_close (by simp)]; rfl
  | stray => rw [length_lexemes_close (by simp)]; rfl

variable {options : SessionOptions} {lexemes : List Lexeme} {course : List TurnRead}

theorem Segmented.length_le (segmented : Segmented table options.expressions finish lexemes course) :
    course.length ≤ lexemes.length := by
  induction segmented with
  | atEnd => exact Nat.le_refl _
  | turn nonempty _ _ _ _ ih =>
      have positive := List.length_pos_iff.mpr nonempty
      rw [List.length_cons, List.length_append]
      omega

theorem Segmented.length_lexemes
    (segmented : Segmented table options.expressions finish lexemes course)
    (isInner : Lexeme.Inner lexemes)
    (atEnd : finish.token = .endOfInput) :
    (Event.lexemes (course.flatMap fun found =>
      options.asking ++ found.script options.showTree)).length =
      lexemes.length + (course.filterMap TurnRead.blamed?).count finish := by
  induction segmented with
  | atEnd => rfl
  | @turn segment rest found later _ place _ stops _ ih =>
      have path : (Cursor.along (segment ++ rest) finish).Path found.events found.cursor :=
        place ▸ path_read table options.expressions _
      have fresh : finish ∉ segment := fun member =>
        isInner finish (List.mem_append_left rest member) atEnd
      have first := stops.length_lexemes path fresh options.showTree
      have further := ih fun lexeme member => isInner lexeme (List.mem_append_right segment member)
      have blamed : (found :: later).filterMap TurnRead.blamed? =
          found.blamed?.toList ++ later.filterMap TurnRead.blamed? := by
        cases blames : found.blamed? with
        | none => exact List.filterMap_cons_none blames
        | some lexeme => exact List.filterMap_cons_some blames
      rw [List.flatMap_cons, Event.lexemes_append, Event.lexemes_append, options.lexemes_asking,
        List.nil_append, List.length_append, first, further, List.length_append, blamed,
        List.count_append]
      omega

end Turn

/-! ## Calls -/

namespace Parser

variable {α : Type} {c : Cursor}

theorem HeedfulAt.readCount_le {p : Parser α} (heedful : p.HeedfulAt c) :
    Event.readCount (p.run c).events ≤ c.size := by
  have steps : ∀ n (d : Cursor), (∀ i < n, (d.skip i).token ≠ .endOfInput) → n ≤ d.size := by
    intro n
    induction n with
    | zero => exact fun d _ => Nat.zero_le _
    | succ n ih =>
        intro d inside
        have smaller := d.size_advance_lt_size (inside 0 (Nat.succ_pos n))
        have further := ih d.advance fun i below => inside (i + 1) (Nat.succ_lt_succ below)
        omega
  exact steps _ c heedful

/-- A token that is read over unseen may be the end of the input. -/
theorem HeedfulAt.readCount_advance_le {p : Parser α} (heedful : p.HeedfulAt c.advance) :
    Event.readCount ((advance >>= fun _ => p).run c).events ≤ c.size + 1 := by
  have split : Event.readCount ((advance >>= fun _ => p).run c).events =
      1 + Event.readCount (p.run c.advance).events :=
    Event.readCount_append [.read c.advance.current] _
  have further := heedful.readCount_le
  have shorter := c.size_advance_le_size
  omega

end Parser

theorem Call.readCount_le (call : Call) (table : Precedence) (c : Cursor) :
    Event.readCount ((call.parser table).run c).events ≤ c.size + 1 := by
  have answered : ∀ {α : Type} {p : Parser α} (answer : α → Answer), p.HeedfulAt c →
      Event.readCount ((p >>= fun a => pure (answer a)).run c).events ≤ c.size + 1 := by
    intro α p answer heedful
    rw [bind_pure_comp]
    exact Nat.le_succ_of_le heedful.readCount_le
  have inside := Parser.localAt_expression table
  have operands := Parser.localAt_primaryWithin table Parser.nestingLimit
  cases call with
  | next => exact Nat.le_add_left 1 c.size
  | primary => exact answered .expression (operands c).heedful
  | group =>
      rw [parser, bind_pure_comp]
      exact (Parser.localAt_grouped inside c.advance).heedful.readCount_advance_le
  | application => exact answered .expression (Parser.localAt_application inside c).heedful
  | quantification => exact answered .expression (Parser.localAt_quantification inside c).heedful
  | expression => exact answered .expression (inside c).heedful
  | continuation least left =>
      exact answered .expression (Parser.localAt_continuation operands left c).heedful
  | prototype => exact answered .prototype (Parser.localAt_prototype c).heedful
  | definition =>
      rw [parser, bind_pure_comp]
      exact (Parser.localAt_defined table _ c.advance).heedful.readCount_advance_le

/-! ## Sessions -/

/-- The end of the input is blamed if the last error stands there, and never twice. -/
theorem count_blamed {lexemes blamed : List Lexeme} {finish : Lexeme}
    (ordered : (lexemes ++ [finish]).Pairwise fun lexeme other => lexeme.start.Before other.start)
    (sublist : blamed.Sublist (lexemes ++ [finish])) :
    blamed.count finish =
      if (blamed.map Lexeme.start).getLast? = some finish.start then 1 else 0 := by
  have across := (List.pairwise_append.mp ordered).2.2
  have elsewhere : ∀ lexeme ∈ lexemes, lexeme.start ≠ finish.start := fun lexeme member =>
    (across lexeme member finish List.mem_cons_self).ne
  rcases List.sublist_append_iff.mp sublist with ⟨front, back, rfl, inFront, inBack⟩
  have absent : front.count finish = 0 :=
    List.count_eq_zero.mpr fun member => elsewhere finish (inFront.subset member) rfl
  rcases List.sublist_singleton.mp inBack with rfl | rfl
  · have notLast : (front.map Lexeme.start).getLast? ≠ some finish.start := by
      intro last
      rcases List.mem_map.mp (List.mem_of_getLast? last) with ⟨lexeme, member, same⟩
      exact elsewhere lexeme (inFront.subset member) same
    rw [List.append_nil, if_neg notLast, absent]
  · have last : ((front ++ [finish]).map Lexeme.start).getLast? = some finish.start := by simp
    rw [if_pos last, List.count_append, absent, List.count_singleton_self]

theorem Session.length_lexemes_script (table : Precedence) (options : SessionOptions) {c : Cursor}
    {lexemes : List Lexeme} {finish : Lexeme}
    (isInner : Lexeme.Inner lexemes)
    (atEnd : finish.token = .endOfInput)
    (start : c.advance = Cursor.along lexemes finish) :
    (Event.lexemes (script table options c)).length = lexemes.length + 1 +
      ((Turn.course table options.expressions c.advance).filterMap TurnRead.blamed?).count
        finish := by
  have segmented := Turn.segmented_course table options.expressions isInner atEnd
  have turns := segmented.length_lexemes isInner atEnd
  rw [← start] at turns
  have one : ∀ events, Event.lexemes (.read c.advance.current :: events) =
      c.advance.current :: Event.lexemes events := fun _ => rfl
  have nothing : ∀ n, Event.lexemes [.noted n, .flushed] = [] := fun _ => rfl
  rw [script, Event.lexemes_append, options.lexemes_asking, List.nil_append, one,
    Event.lexemes_append, nothing, List.append_nil, turnsScript, Event.lexemes_append,
    options.lexemes_asking, List.append_nil, List.length_cons, turns]
  omega

/-- On a sink that never fails a session comes to the end, in no more turns than there are lexemes
before the end of the input. Each turn goes on from its cursor by what it reads, one lexeme or more.
The session reads what the scanner gives in as many calls as there are lexemes, and in one more just
if its last error stands at the end of the input. Any call of the parser, whatever it has been asked
for before, reads no more than what is left and the end, and enters at most one primary more than it
reads lexemes. -/
theorem Session.reads_each_lexeme_once (table : Precedence) (options : SessionOptions)
    (feed : Feed) :
    (∃ lexemes finish turns, (Scanner.start feed).lexemes = lexemes ++ [finish] ∧
      Lexeme.Inner lexemes ∧ finish.token = .endOfInput ∧
      (Session.turns table options (Cursor.ofFeed feed).advance .unlimited).result = .ok turns ∧
      turns.length ≤ lexemes.length ∧
      let outcome := run table options (Cursor.ofFeed feed) .unlimited
      let report := SessionReport.ofTurns turns
      let further :=
        if report.errors.getLast?.map ParseError.position = some finish.start then 1 else 0
      outcome.result = .ok report ∧
      Event.lexemes outcome.events = (Scanner.start feed).calls (lexemes.length + 1 + further) ∧
      (Scanner.start feed).calls (lexemes.length + 1) = lexemes ++ [finish]) ∧
    (∀ c, c.token ≠ .endOfInput →
      let found := Turn.read table options.expressions c
      let count := (Event.lexemes (found.script options.showTree)).length
      0 < count ∧ found.turn.closed found.cursor = c.skip count ∧
        (found.turn.closed found.cursor).size < c.size) ∧
    ∀ (calls : List Call) (call : Call),
      let t := (Call.runAll calls (.start feed table)).1
      let outcome := call.counter.run t
      let count := (Event.lexemes outcome.events).length
      outcome.state.cursor = t.cursor.skip count ∧ count ≤ t.cursor.size + 1 ∧
        outcome.state.entrances.length ≤ t.entrances.length + count + 1 := by
  refine ⟨?_, fun c notEnd => Turn.progresses table options.expressions options.showTree notEnd, ?_⟩
  · obtain ⟨lexemes, finish, shape, isInner, atEnd, start⟩ := Cursor.advance_ofFeed feed
    have ordered := Scanner.pairwise_lexemes feed
    rw [shape] at ordered
    have segmented := Turn.segmented_course table options.expressions isInner atEnd
    have places := segmented.map_position_errors
    have counted := count_blamed ordered segmented.blamed_sublist
    have length := length_lexemes_script table options isInner atEnd start
    have bound := segmented.length_le
    rw [← places, List.getLast?_map] at counted
    rw [← start, Turn.map_turn_course] at counted
    rw [← start, ← List.length_map TurnRead.turn, Turn.map_turn_course] at bound
    refine ⟨lexemes, finish, _, shape, isInner, atEnd, (yields_turns table options _).1, bound,
      (yields_run table options _).1, ?_, ?_⟩
    · rcases exists_readsTo_run table options (Cursor.ofFeed feed) with ⟨last, reads⟩
      rcases reads .unlimited with ⟨trail, reached, path, same, _⟩
      have calls := path.lexemes_eq.1
      rw [← same, (performs_run table options (Cursor.ofFeed feed)).outcome] at calls
      rw [(performs_run table options (Cursor.ofFeed feed)).outcome, ← counted, ← length]
      exact calls
    · have all := (Scanner.start feed).calls_length_eq List.prefix_rfl
      rw [shape, List.length_append] at all
      exact all
  · intro calls call t outcome count
    have path := call.counter.path t
    have counted : count = Event.readCount outcome.events := path.length_lexemes
    have settled := (Tally.settled_start feed table).runAll calls
    have alike : outcome.events = ((call.parser table).run t.cursor).events :=
      (settled.alike call).2.2
    rw [counted]
    refine ⟨path.eq_skip, ?_, (call.paced t).failed⟩
    rw [alike]
    exact call.readCount_le table t.cursor

end FormulaReader
