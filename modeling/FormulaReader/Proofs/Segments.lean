import FormulaReader.Proofs.Input
import FormulaReader.Proofs.Locality
import FormulaReader.Proofs.Turns

/-!
Segments: a session cuts its input into pieces, one for every turn, and every turn finds what it
would find if its piece were the whole input.
-/

namespace FormulaReader

/-! ## Moving along lexemes -/

namespace Cursor

theorem skip_along_append (segment rest : List Lexeme) (finish : Lexeme) :
    (along (segment ++ rest) finish).skip segment.length = along rest finish := by
  induction segment with
  | nil => rfl
  | cons first later ih =>
      rw [List.length_cons, skip, List.cons_append, advance_along_cons, ih]

theorem current_skip_along {segment : List Lexeme} (rest other : List Lexeme)
    (finish : Lexeme) {i : Nat} (inside : i < segment.length) :
    ((along (segment ++ rest) finish).skip i).current =
      ((along (segment ++ other) finish).skip i).current := by
  induction segment generalizing i with
  | nil => cases inside
  | cons first later ih =>
      cases i with
      | zero => rfl
      | succ i =>
          rw [skip, skip, List.cons_append, List.cons_append, advance_along_cons,
            advance_along_cons]
          exact ih (Nat.lt_of_succ_lt_succ inside)

theorem raise_of_current {c d : Cursor} (same : c.current = d.current) (fault : Fault) :
    c.raise fault = d.raise fault := by
  rw [raise, raise, token, token, position, position, same]

end Cursor

/-! ## Parsing a segment on its own -/

namespace Parser

variable {α : Type} {p : Parser α} {segment rest : List Lexeme} {finish : Lexeme}

/-- From `c` on, `p` fails with `e` and stops at `d`. -/
def Fails (p : Parser α) (c : Cursor) (e : ParseError) (d : Cursor) : Prop :=
  (p.run c).result = .error e ∧ (p.run c).state = d

/-- What a parser reads over is a segment of the input. -/
theorem exists_segment {lexemes : List Lexeme}
    (heedful : p.HeedfulAt (Cursor.along lexemes finish))
    (atEnd : finish.token = .endOfInput) :
    ∃ segment rest, lexemes = segment ++ rest ∧
      segment.length = Event.readCount (p.run (Cursor.along lexemes finish)).events ∧
      (p.run (Cursor.along lexemes finish)).state = Cursor.along rest finish := by
  let n := Event.readCount (p.run (Cursor.along lexemes finish)).events
  have inside : n ≤ lexemes.length := by
    apply Nat.le_of_not_lt
    intro beyond
    have notEnd := heedful lexemes.length beyond
    have finished := Cursor.skip_along_append lexemes [] finish
    rw [List.append_nil] at finished
    rw [finished] at notEnd
    exact notEnd atEnd
  have length : (lexemes.take n).length = n := List.length_take_of_le inside
  have reached := Cursor.skip_along_append (lexemes.take n) (lexemes.drop n) finish
  rw [List.take_append_drop, length] at reached
  exact ⟨lexemes.take n, lexemes.drop n, (List.take_append_drop n lexemes).symm, length,
    (state_eq_skip p _).trans reached⟩

theorem reads_segment {a : α}
    (steady : p.SteadyAt (Cursor.along (segment ++ rest) finish))
    (length : segment.length =
      Event.readCount (p.run (Cursor.along (segment ++ rest) finish)).events)
    (atEnd : finish.token = .endOfInput)
    (read : (p.run (Cursor.along (segment ++ rest) finish)).result = .ok a) :
    p.Reads (Cursor.along segment finish) a (Cursor.along [] finish) := by
  have finished := Cursor.skip_along_append segment [] finish
  rw [List.append_nil] at finished
  have stands : StandsIn (p.run (Cursor.along (segment ++ rest) finish))
      (Cursor.along (segment ++ rest) finish) (Cursor.along segment finish) := by
    constructor
    · intro i below
      rw [← length] at below
      have same := Cursor.current_skip_along rest [] finish below
      rw [List.append_nil] at same
      exact congrArg Lexeme.token same
    · rw [← length, finished]
      refine .inr ⟨?_, .inl ⟨a, read⟩⟩
      rw [Cursor.token_along_nil, atEnd]
      rfl
  have mirror := (steady _ stands).result
  rw [read] at mirror
  refine ⟨mirror, ?_⟩
  rw [steady.state_eq stands, ← length, finished]

theorem fails_segment {last : Lexeme} {e : ParseError}
    (steady : p.SteadyAt (Cursor.along (segment ++ last :: rest) finish))
    (length : segment.length =
      Event.readCount (p.run (Cursor.along (segment ++ last :: rest) finish)).events)
    (failed : (p.run (Cursor.along (segment ++ last :: rest) finish)).result = .error e) :
    p.Fails (Cursor.along (segment ++ [last]) finish) e (Cursor.along [last] finish) := by
  have stop := Cursor.skip_along_append segment (last :: rest) finish
  have ownStop := Cursor.skip_along_append segment [last] finish
  have stands : StandsIn (p.run (Cursor.along (segment ++ last :: rest) finish))
      (Cursor.along (segment ++ last :: rest) finish)
      (Cursor.along (segment ++ [last]) finish) := by
    constructor
    · intro i below
      rw [← length] at below
      exact congrArg Lexeme.token (Cursor.current_skip_along (last :: rest) [last] finish below)
    · rw [← length, stop, ownStop]
      exact .inl rfl
  have ended := steady.state_eq stands
  rw [← length, ownStop] at ended
  have raised := steady.error_eq failed
  rw [state_eq_skip, ← length, stop] at raised
  have own : e = (Cursor.along [last] finish).raise e.fault :=
    raised.trans (Cursor.raise_of_current rfl e.fault)
  have mirror := (steady _ stands).result
  rw [failed, ended] at mirror
  exact ⟨mirror.trans (congrArg Except.error own.symm), ended⟩

end Parser

/-! ## What turns make of segments -/

namespace Turn

/-- The outcome of parsing the segment with `p` as if it were the whole input. An error is at its
last lexeme, or at the end of it if nothing follows. -/
inductive Parses {α : Type} (p : Parser α) (kind : α → Item) (finish : Lexeme) :
    Turn → List Lexeme → List Lexeme → Prop
  | item {a : α} {segment rest : List Lexeme} :
      p.Reads (Cursor.along segment finish) a (Cursor.along [] finish) →
      Parses p kind finish (.item (kind a)) segment rest
  | rejected {e : ParseError} {front : List Lexeme} {last : Lexeme} {rest : List Lexeme} :
      p.Fails (Cursor.along (front ++ [last]) finish) e (Cursor.along [last] finish) →
      e.position = last.start →
      Parses p kind finish (.rejected e) (front ++ [last]) rest
  | rejectedAtEnd {e : ParseError} {segment : List Lexeme} :
      p.Fails (Cursor.along segment finish) e (Cursor.along [] finish) →
      e.position = finish.start →
      Parses p kind finish (.rejected e) segment []

/-- The turn is what the segment deserves on its own, where `rest` follows it. -/
inductive Covers (table : Precedence) (expressions : Bool) (finish : Lexeme) :
    Turn → List Lexeme → List Lexeme → Prop
  | separator {lexeme : Lexeme} {rest : List Lexeme} :
      lexeme.token = .symbol ';' →
      Covers table expressions finish .separator [lexeme] rest
  | definition {turn : Turn} {first : Lexeme} {later rest : List Lexeme} :
      first.token = .define →
      Parses (Parser.definition table) .definition finish turn (first :: later) rest →
      Covers table expressions finish turn (first :: later) rest
  | expression {turn : Turn} {first : Lexeme} {later rest : List Lexeme} :
      expressions = true →
      first.token ≠ .define →
      first.token ≠ .symbol ';' →
      Parses (Parser.expression table) .expression finish turn (first :: later) rest →
      Covers table expressions finish turn (first :: later) rest
  | stray {lexeme : Lexeme} {rest : List Lexeme} :
      expressions = false →
      lexeme.token ≠ .define →
      lexeme.token ≠ .symbol ';' →
      Covers table expressions finish (.stray lexeme.token) [lexeme] rest

/-- How far the reading of a turn goes: over its segment for an item, up to the token at fault for
an error, and nowhere for a single token. -/
inductive Stops (finish : Lexeme) : TurnRead → List Lexeme → List Lexeme → Prop
  | item {parsed : Item} {segment rest : List Lexeme} {events : List Event} :
      Event.readCount events = segment.length →
      Stops finish ⟨.item parsed, Cursor.along rest finish, events⟩ segment rest
  | rejected {e : ParseError} {front : List Lexeme} {last : Lexeme} {rest : List Lexeme}
      {events : List Event} :
      e.position = last.start →
      Event.readCount events = front.length →
      Stops finish ⟨.rejected e, Cursor.along (last :: rest) finish, events⟩ (front ++ [last]) rest
  | rejectedAtEnd {e : ParseError} {segment : List Lexeme} {events : List Event} :
      e.position = finish.start →
      Event.readCount events = segment.length →
      Stops finish ⟨.rejected e, Cursor.along [] finish, events⟩ segment []
  | separator {lexeme : Lexeme} {rest : List Lexeme} :
      Stops finish ⟨.separator, Cursor.along (lexeme :: rest) finish, []⟩ [lexeme] rest
  | stray {lexeme : Lexeme} {rest : List Lexeme} {n : Note} :
      Stops finish ⟨.stray lexeme.token, Cursor.along (lexeme :: rest) finish, [.noted n]⟩
        [lexeme] rest

variable {finish : Lexeme}

/-- However far it goes, the next turn begins behind the segment. -/
theorem Stops.exists_closed {found : TurnRead} {segment rest : List Lexeme}
    (stops : Stops finish found segment rest) :
    ∃ last, found.turn.closed found.cursor = Cursor.along rest last ∧
      (last = finish ∨ rest = [] ∧ last = finish.endAfter) := by
  cases stops with
  | item _ => exact ⟨finish, rfl, .inl rfl⟩
  | rejectedAtEnd _ _ => exact ⟨finish.endAfter, rfl, .inr ⟨rfl, rfl⟩⟩
  | rejected _ _ =>
      refine ⟨finish, ?_, .inl rfl⟩
      rw [closed_of_not_item (by simp), Cursor.advance_along_cons]
  | separator =>
      refine ⟨finish, ?_, .inl rfl⟩
      rw [closed_of_not_item (by simp), Cursor.advance_along_cons]
  | stray =>
      refine ⟨finish, ?_, .inl rfl⟩
      rw [closed_of_not_item (by simp), Cursor.advance_along_cons]

theorem exists_segment_attempt {α : Type}
    {p : Parser α} (kind : α → Item) {lexemes : List Lexeme}
    (isLocal : p.LocalAt (Cursor.along lexemes finish))
    (consumes : p.Consumes)
    (notEnd : (Cursor.along lexemes finish).token ≠ .endOfInput)
    (atEnd : finish.token = .endOfInput) :
    ∃ segment rest, lexemes = segment ++ rest ∧ segment ≠ [] ∧
      Parses p kind finish (attempt p kind (Cursor.along lexemes finish)).turn segment rest ∧
      Stops finish (attempt p kind (Cursor.along lexemes finish)) segment rest := by
  obtain ⟨segment, rest, split, length, reached⟩ :=
    Parser.exists_segment isLocal.heedful atEnd
  have steady := isLocal.steady
  subst split
  cases result : (p.run (Cursor.along (segment ++ rest) finish)).result with
  | ok a =>
      have nonempty : segment ≠ [] := by
        intro same
        subst same
        have smaller := consumes _ a result
        have larger := Cursor.length_ahead_lt_size notEnd
        rw [reached] at smaller
        exact absurd smaller (Nat.not_le_of_lt larger)
      have item : Parses p kind finish (.item (kind a)) segment rest :=
        .item (Parser.reads_segment steady length atEnd result)
      refine ⟨segment, rest, rfl, nonempty, ?_⟩
      simp only [attempt, result, reached]
      exact ⟨item, .item length.symm⟩
  | error e =>
      have raised := steady.error_eq result
      rw [reached] at raised
      cases rest with
      | nil =>
          have nonempty : segment ≠ [] := by
            intro same
            subst same
            exact notEnd atEnd
          have own : p.Fails (Cursor.along segment finish) e (Cursor.along [] finish) := by
            rw [List.append_nil] at result reached
            exact ⟨result, reached⟩
          have place : e.position = finish.start := congrArg ParseError.position raised
          refine ⟨segment, [], rfl, nonempty, ?_⟩
          simp only [attempt, result, reached]
          exact ⟨.rejectedAtEnd own place, .rejectedAtEnd place length.symm⟩
      | cons last later =>
          have own := Parser.fails_segment steady length result
          have split : segment ++ last :: later = (segment ++ [last]) ++ later := by simp
          have place : e.position = last.start := congrArg ParseError.position raised
          refine ⟨segment ++ [last], later, split, by simp, ?_⟩
          simp only [attempt, result, reached]
          exact ⟨.rejected own place, .rejected place length.symm⟩

theorem exists_segment_read (table : Precedence) (expressions : Bool) {first : Lexeme}
    (later : List Lexeme)
    (notEnd : first.token ≠ .endOfInput)
    (atEnd : finish.token = .endOfInput) :
    ∃ segment rest, first :: later = segment ++ rest ∧ segment ≠ [] ∧
      Covers table expressions finish
        (read table expressions (Cursor.along (first :: later) finish)).turn segment rest ∧
      Stops finish (read table expressions (Cursor.along (first :: later) finish))
        segment rest := by
  have notEndHere : (Cursor.along (first :: later) finish).token ≠ .endOfInput := notEnd
  rw [read, Cursor.token_along_cons]
  split
  · next separates =>
      exact ⟨[first], later, rfl, by simp, .separator separates, .separator⟩
  · next defines =>
      obtain ⟨segment, rest, split, nonempty, parses, stops⟩ :=
        exists_segment_attempt Item.definition
          (Parser.localAt_definition table notEndHere) (Parser.consumes_definition table)
          notEndHere atEnd
      obtain ⟨head, tail, rfl⟩ := List.exists_cons_of_ne_nil nonempty
      obtain ⟨rfl, rfl⟩ := List.cons.inj split
      exact ⟨_, rest, rfl, nonempty, .definition defines parses, stops⟩
  · next notSeparator notDefine =>
      by_cases wanted : expressions = true
      · rw [if_pos wanted]
        obtain ⟨segment, rest, split, nonempty, parses, stops⟩ :=
          exists_segment_attempt Item.expression
            (Parser.localAt_expression table _) (Parser.consumes_expression table)
            notEndHere atEnd
        obtain ⟨head, tail, rfl⟩ := List.exists_cons_of_ne_nil nonempty
        obtain ⟨rfl, rfl⟩ := List.cons.inj split
        exact ⟨_, rest, rfl, nonempty, .expression wanted notDefine notSeparator parses, stops⟩
      · rw [if_neg wanted]
        have unwanted : expressions = false := by simpa using wanted
        exact ⟨[first], later, rfl, by simp, .stray unwanted notDefine notSeparator, .stray⟩

/-- The course of a session on the lexemes, which are cut into a segment for each turn. -/
inductive Segmented (table : Precedence) (expressions : Bool) (finish : Lexeme) :
    List Lexeme → List TurnRead → Prop
  | atEnd : Segmented table expressions finish [] []
  | turn {segment rest : List Lexeme} {found : TurnRead} {later : List TurnRead} :
      segment ≠ [] →
      found = read table expressions (Cursor.along (segment ++ rest) finish) →
      Covers table expressions finish found.turn segment rest →
      Stops finish found segment rest →
      Segmented table expressions finish rest later →
      Segmented table expressions finish (segment ++ rest) (found :: later)

theorem segmented_course (table : Precedence) (expressions : Bool) {lexemes : List Lexeme}
    (isInner : Lexeme.Inner lexemes)
    (atEnd : finish.token = .endOfInput) :
    Segmented table expressions finish lexemes
      (course table expressions (Cursor.along lexemes finish)) := by
  induction length : lexemes.length using Nat.strongRecOn generalizing lexemes with
  | ind n ih =>
      cases lexemes with
      | nil =>
          have finished : (Cursor.along [] finish).token = .endOfInput := atEnd
          rw [course_of_atEnd finished]
          exact .atEnd
      | cons first later =>
          have notEnd := isInner first List.mem_cons_self
          obtain ⟨segment, rest, split, nonempty, covers, stops⟩ :=
            exists_segment_read table expressions later notEnd atEnd
          obtain ⟨last, closed, place⟩ := stops.exists_closed
          have restInner : Lexeme.Inner rest := by
            intro lexeme member
            apply isInner
            rw [split]
            exact List.mem_append_right segment member
          have shorter : rest.length < n := by
            have total := congrArg List.length split
            have positive := List.length_pos_iff.mpr nonempty
            rw [List.length_append, length] at total
            omega
          have further : course table expressions (Cursor.along rest last) =
              course table expressions (Cursor.along rest finish) := by
            rcases place with rfl | ⟨rfl, rfl⟩
            · rfl
            · have finished : (Cursor.along [] finish).token = .endOfInput := atEnd
              have again : (Cursor.along [] finish.endAfter).token = .endOfInput := rfl
              rw [course_of_atEnd finished, course_of_atEnd again]
          have notOver : (Cursor.along (first :: later) finish).token ≠ .endOfInput := notEnd
          rw [course_of_notEnd notOver, closed, further]
          rw [split] at covers stops ⊢
          exact .turn nonempty rfl covers stops (ih rest.length shorter restInner rfl)

/-- The segments, each with the reading of the turn that it is for. -/
theorem Segmented.exists_readings {table : Precedence} {expressions : Bool}
    {lexemes : List Lexeme} {course : List TurnRead}
    (segmented : Segmented table expressions finish lexemes course) :
    ∃ readings : List (List Lexeme × TurnRead),
      readings.flatMap Prod.fst = lexemes ∧
      (∀ front segment found back, readings = front ++ (segment, found) :: back →
        segment ≠ [] ∧
          Covers table expressions finish found.turn segment (back.flatMap Prod.fst) ∧
          Stops finish found segment (back.flatMap Prod.fst)) ∧
      readings.map Prod.snd = course := by
  induction segmented with
  | atEnd =>
      refine ⟨[], rfl, ?_, rfl⟩
      intro front segment found back split
      cases front <;> cases split
  | @turn segment rest found later nonempty _ covers stops _ ih =>
      obtain ⟨readings, rfl, each, rfl⟩ := ih
      refine ⟨(segment, found) :: readings, rfl, ?_, rfl⟩
      intro front piece other back split
      cases front with
      | nil =>
          obtain ⟨same, rfl⟩ := List.cons.inj split
          cases same
          exact ⟨nonempty, covers, stops⟩
      | cons head tail => exact each tail piece other back (List.cons.inj split).2

/-- The same segments, each with the turn alone. -/
theorem segments_of_readings {table : Precedence} {expressions : Bool}
    {readings : List (List Lexeme × TurnRead)}
    (each : ∀ front segment found back, readings = front ++ (segment, found) :: back →
      segment ≠ [] ∧
        Covers table expressions finish found.turn segment (back.flatMap Prod.fst) ∧
        Stops finish found segment (back.flatMap Prod.fst)) :
    let segments := readings.map (Prod.map id TurnRead.turn)
    segments.flatMap Prod.fst = readings.flatMap Prod.fst ∧
      ∀ front segment turn back, segments = front ++ (segment, turn) :: back →
        segment ≠ [] ∧
          Covers table expressions finish turn segment (back.flatMap Prod.fst) := by
  have joined : ∀ readings : List (List Lexeme × TurnRead),
      (readings.map (Prod.map id TurnRead.turn)).flatMap Prod.fst = readings.flatMap Prod.fst :=
    List.flatMap_map _ _
  refine ⟨joined readings, ?_⟩
  intro front segment turn back split
  obtain ⟨before, others, rfl, _, pair⟩ := List.map_eq_append_iff.mp split
  obtain ⟨⟨piece, found⟩, behind, rfl, same, rfl⟩ := List.map_eq_cons_iff.mp pair
  cases same
  obtain ⟨nonempty, covers, _⟩ := each before piece found behind rfl
  rw [joined]
  exact ⟨nonempty, covers⟩

/-- The segments, each with the turn that it is for. -/
theorem Segmented.exists_segments {table : Precedence} {expressions : Bool}
    {lexemes : List Lexeme} {course : List TurnRead}
    (segmented : Segmented table expressions finish lexemes course) :
    ∃ segments : List (List Lexeme × Turn),
      segments.flatMap Prod.fst = lexemes ∧
      (∀ front segment turn back, segments = front ++ (segment, turn) :: back →
        segment ≠ [] ∧
          Covers table expressions finish turn segment (back.flatMap Prod.fst)) ∧
      segments.map Prod.snd = course.map TurnRead.turn := by
  obtain ⟨readings, rfl, each, rfl⟩ := segmented.exists_readings
  obtain ⟨joined, covered⟩ := segments_of_readings each
  refine ⟨_, joined, covered, ?_⟩
  rw [List.map_map, List.map_map]
  rfl

end Turn

/-- A session cuts the lexemes of its input into segments, one for every turn it takes, and reports
what these are on their own: the items and the errors of the segments in their order, and how many
of them are stray. -/
theorem Session.run_eq_ofTurns_segments (table : Precedence) (options : SessionOptions)
    (feed : Feed) :
    ∃ (lexemes : List Lexeme) (finish : Lexeme) (segments : List (List Lexeme × Turn)),
      (Scanner.start feed).lexemes = lexemes ++ [finish] ∧
      Lexeme.Inner lexemes ∧ finish.token = .endOfInput ∧
      segments.flatMap Prod.fst = lexemes ∧
      (∀ front segment turn back, segments = front ++ (segment, turn) :: back →
        segment ≠ [] ∧ Turn.Covers table options.expressions finish turn segment
          (back.flatMap Prod.fst)) ∧
      (Session.turns table options (Cursor.ofFeed feed).advance .unlimited).result =
        .ok (segments.map Prod.snd) ∧
      let report := SessionReport.ofTurns (segments.map Prod.snd)
      (Session.run table options (Cursor.ofFeed feed) .unlimited).result = .ok report ∧
      report.items = segments.filterMap (fun piece =>
        match piece.2 with
        | .item parsed => some parsed
        | _ => none) ∧
      report.errors = segments.filterMap (fun piece =>
        match piece.2 with
        | .rejected e => some e
        | _ => none) ∧
      report.warnings = segments.countP fun piece =>
        match piece.2 with
        | .stray _ => true
        | _ => false := by
  obtain ⟨lexemes, finish, shape, isInner, atEnd, start⟩ := Cursor.advance_ofFeed feed
  obtain ⟨segments, joined, each, turns⟩ :=
    (Turn.segmented_course table options.expressions isInner atEnd).exists_segments
  rw [Turn.map_turn_course] at turns
  refine ⟨lexemes, finish, segments, shape, isInner, atEnd, joined, each, ?_, ?_,
    List.filterMap_map, List.filterMap_map, List.countP_map⟩
  · rw [turns, ← start]
    exact (Session.yields_turns table options _).1
  · rw [turns, ← start]
    exact (Session.yields_run table options _).1

end FormulaReader
