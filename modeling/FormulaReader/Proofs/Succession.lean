import FormulaReader.Proofs.Calls
import FormulaReader.Proofs.Limits
import FormulaReader.Proofs.Segments

/-!
Succession: a session goes through its input from left to right. A turn blames one lexeme at most,
which is the last of its segment or the end of the input, and no later turn looks at that one again.
So errors come in the order of the input, each of them at another lexeme.
-/

namespace FormulaReader

/-! ## Blame -/

def Turn.error? : Turn → Option ParseError
  | .rejected e => some e
  | _ => none

theorem SessionReport.errors_ofTurns (turns : List Turn) :
    (ofTurns turns).errors = turns.filterMap Turn.error? := rfl

/-- The lexeme that a turn found fault with, which is the one it stopped at. -/
def TurnRead.blamed? (found : TurnRead) : Option Lexeme :=
  found.turn.error?.map fun _ => found.cursor.current

namespace Turn

variable {table : Precedence} {expressions : Bool} {finish : Lexeme} {found : TurnRead}
  {segment rest lexemes : List Lexeme} {course : List TurnRead}

theorem Stops.blamed_cases (stops : Stops finish found segment rest) :
    found.blamed? = none ∨ (∃ front last, segment = front ++ [last] ∧ found.blamed? = some last) ∨
      rest = [] ∧ found.blamed? = some finish := by
  cases stops with
  | item _ => exact .inl rfl
  | @rejected _ front last _ _ _ _ => exact .inr (.inl ⟨front, last, rfl, rfl⟩)
  | rejectedAtEnd _ _ => exact .inr (.inr ⟨rfl, rfl⟩)
  | separator => exact .inl rfl
  | stray => exact .inl rfl

/-- The error stands where the blamed lexeme starts. -/
theorem Stops.position_error (stops : Stops finish found segment rest) :
    found.turn.error?.map ParseError.position = found.blamed?.map Lexeme.start := by
  cases stops with
  | rejected place _ => exact congrArg some place
  | rejectedAtEnd place _ => exact congrArg some place
  | _ => rfl

theorem Segmented.eq_nil (segmented : Segmented table expressions finish lexemes course)
    (nothing : lexemes = []) :
    course = [] := by
  cases segmented with
  | atEnd => rfl
  | turn nonempty _ _ _ _ => exact absurd (List.append_eq_nil_iff.mp nothing).1 nonempty

theorem Segmented.map_position_errors
    (segmented : Segmented table expressions finish lexemes course) :
    (SessionReport.ofTurns (course.map TurnRead.turn)).errors.map ParseError.position =
      (course.filterMap TurnRead.blamed?).map Lexeme.start := by
  have each : ∀ found ∈ course,
      found.turn.error?.map ParseError.position = found.blamed?.map Lexeme.start := by
    induction segmented with
    | atEnd => simp
    | turn _ _ _ stops _ ih => exact List.forall_mem_cons.mpr ⟨stops.position_error, ih⟩
  have kept := congrArg (List.filterMap id) (List.map_congr_left each)
  rw [List.filterMap_map, List.filterMap_map] at kept
  rw [SessionReport.errors_ofTurns, List.filterMap_map, List.map_filterMap, List.map_filterMap]
  exact kept

/-- The blamed lexemes come in the order of the input. -/
theorem Segmented.blamed_sublist
    (segmented : Segmented table expressions finish lexemes course) :
    (course.filterMap TurnRead.blamed?).Sublist (lexemes ++ [finish]) := by
  induction segmented with
  | atEnd => exact List.nil_sublist _
  | @turn segment rest found later nonempty _ _ stops further ih =>
      rcases stops.blamed_cases with clean | ⟨front, last, rfl, blames⟩ | ⟨rfl, blames⟩
      · rw [List.filterMap_cons_none clean, List.append_assoc]
        exact ih.trans (List.sublist_append_right segment _)
      · rw [List.filterMap_cons_some blames]
        have inside := (ih.cons_cons last).trans (List.sublist_append_right front _)
        simpa using inside
      · rw [List.filterMap_cons_some blames, further.eq_nil rfl, List.append_nil]
        exact List.sublist_append_right segment [finish]

end Turn

/-! ## Order -/

namespace Session

section Order

variable {errors : List ParseError} {blamed : List Sighting} {lexemes : List Lexeme}
  {finish : Lexeme}
  (ordered : (lexemes ++ [finish]).Pairwise fun lexeme other => lexeme.start.Before other.start)
  (sublist : blamed.Sublist ((lexemes ++ [finish]).map Lexeme.sighting))
  (places : errors.map ParseError.position = blamed.map Sighting.start)

include ordered

theorem not_before_of_pairwise :
    ∀ lexeme ∈ lexemes ++ [finish], ¬ finish.start.Before lexeme.start := by
  have across := (List.pairwise_append.mp ordered).2.2
  intro lexeme member later
  rcases List.mem_append.mp member with inside | last
  · have earlier := across lexeme inside finish List.mem_cons_self
    exact (later.trans earlier).ne rfl
  · rw [List.mem_singleton.mp last] at later
    exact later.ne rfl

include sublist places

/-- Errors that blame lexemes in their order stand one behind the other. -/
theorem pairwise_errors : errors.Pairwise fun e other => e.position.Before other.position := by
  have starts : ((lexemes ++ [finish]).map Lexeme.start).Pairwise Position.Before :=
    List.pairwise_map.mpr ordered
  have fewer := sublist.map Sighting.start
  rw [← places, List.map_map] at fewer
  exact List.pairwise_map.mp (starts.sublist fewer)

/-- Nothing is blamed after the end of the input. -/
theorem eq_nil_of_position_eq {front back : List ParseError} {e : ParseError}
    (split : errors = front ++ e :: back)
    (atEnd : e.position = finish.start) :
    back = [] := by
  cases back with
  | nil => rfl
  | cons other later =>
      have forward := pairwise_errors ordered sublist places
      rw [split] at forward
      have before : e.position.Before other.position :=
        (List.pairwise_cons.mp (List.pairwise_append.mp forward).2.1).1 other List.mem_cons_self
      have member : other.position ∈ blamed.map Sighting.start := by
        rw [← places, split]
        simp
      rcases List.mem_map.mp member with ⟨s, inBlamed, start⟩
      rcases List.mem_map.mp (sublist.subset inBlamed) with ⟨lexeme, inside, rfl⟩
      have notBefore := not_before_of_pairwise ordered lexeme inside
      have same : lexeme.start = other.position := start
      rw [same, ← atEnd] at notBefore
      exact absurd before notBefore

end Order

end Session

/-! ## Sessions -/

/-- From in front of some lexemes, reading on comes to the rest of them, or stays at the end. -/
theorem Cursor.exists_skip_along {lexemes : List Lexeme} {finish : Lexeme}
    (atEnd : finish.token = .endOfInput) (k : Nat) :
    ∃ rest last, rest <:+ lexemes ∧ last.sighting = finish.sighting ∧
      (along lexemes finish).skip k = along rest last := by
  induction k with
  | zero => exact ⟨lexemes, finish, List.suffix_rfl, rfl, rfl⟩
  | succ k ih =>
      rcases ih with ⟨rest, last, further, same, reached⟩
      rw [skip_succ, reached]
      cases rest with
      | nil =>
          have place : last.start = finish.start := congrArg Sighting.start same
          refine ⟨[], last.endAfter, List.nil_suffix, ?_, rfl⟩
          rw [Lexeme.sighting, Lexeme.sighting, atEnd, ← place]
          rfl
      | cons first later =>
          rw [advance_along_cons]
          exact ⟨later, last, (List.suffix_cons first later).trans further, same, rfl⟩

/-- What is blamed on the way from any lexeme on. -/
theorem Turn.exists_blamed (table : Precedence) (expressions : Bool) {lexemes : List Lexeme}
    {finish : Lexeme}
    (isInner : Lexeme.Inner lexemes)
    (atEnd : finish.token = .endOfInput)
    (k : Nat) :
    ∃ blamed : List Sighting, blamed.Sublist ((lexemes ++ [finish]).map Lexeme.sighting) ∧
      (SessionReport.ofTurns (Turn.all table expressions
        ((Cursor.along lexemes finish).skip k))).errors.map ParseError.position =
          blamed.map Sighting.start := by
  rcases Cursor.exists_skip_along atEnd k with ⟨rest, last, further, same, reached⟩
  have restInner : Lexeme.Inner rest := fun lexeme member => isInner lexeme (further.subset member)
  have lastAtEnd : last.token = .endOfInput := (congrArg Sighting.token same).trans atEnd
  have segmented := segmented_course table expressions restInner lastAtEnd
  have places := segmented.map_position_errors
  have starts : ∀ blamed : List Lexeme,
      blamed.map Lexeme.start = (blamed.map Lexeme.sighting).map Sighting.start := by
    intro blamed
    rw [List.map_map]
    rfl
  rw [map_turn_course, starts] at places
  rw [reached, places]
  refine ⟨_, (segmented.blamed_sublist.map Lexeme.sighting).trans ?_, rfl⟩
  rw [List.map_append, List.map_append, List.map_singleton, List.map_singleton, same]
  exact (further.sublist.map Lexeme.sighting).append_right _

/-- A sink can only keep the report from being made. -/
theorem Session.eq_of_run_eq_ok {table : Precedence} {options : SessionOptions} {c : Cursor}
    {sink : Sink} {report : SessionReport}
    (succeeded : (run table options c sink).result = .ok report) :
    report = SessionReport.ofTurns (Turn.all table options.expressions c.advance) := by
  rw [(performs_run table options c).result_eq sink] at succeeded
  cases outcome : (Reporting.performAll (script table options c) sink).result with
  | error fault =>
      rw [outcome] at succeeded
      cases succeeded
  | ok done =>
      rw [outcome] at succeeded
      exact (Except.ok.inj succeeded).symm

/-- Lexemes start one behind the other, up to the end of the input. The errors of a session, whatever
the parser has been asked for before, stand one behind the other too, each where a lexeme starts that
no other error is about. An error at the end of the input is the last one. -/
theorem Session.errors_in_order (table : Precedence) (options : SessionOptions) (feed : Feed) :
    ∃ lexemes finish, (Scanner.start feed).lexemes = lexemes ++ [finish] ∧
      Lexeme.Inner lexemes ∧ finish.token = .endOfInput ∧
      ((lexemes ++ [finish]).Pairwise fun lexeme other => lexeme.start.Before other.start) ∧
      ∀ calls : List Call, let c := (Call.readAll table calls (.ofFeed feed)).1
        ∃ (report : SessionReport) (blamed : List Sighting),
          (run table options c .unlimited).result = .ok report ∧
          (∀ sink other, (run table options c sink).result = .ok other → other = report) ∧
          blamed.Sublist ((lexemes ++ [finish]).map Lexeme.sighting) ∧
          report.errors.map ParseError.position = blamed.map Sighting.start ∧
          (report.errors.Pairwise fun e other => e.position.Before other.position) ∧
          ∀ front e back, report.errors = front ++ e :: back → e.position = finish.start →
            back = [] := by
  obtain ⟨lexemes, finish, shape, isInner, atEnd, start⟩ := Cursor.advance_ofFeed feed
  have ordered := Scanner.pairwise_lexemes feed
  rw [shape] at ordered
  refine ⟨lexemes, finish, shape, isInner, atEnd, ordered, ?_⟩
  intro calls c
  have place : c.advance = (Cursor.along lexemes finish).skip
      (Event.readCount (Call.readAll table calls (.ofFeed feed)).2) := by
    rw [← start, ← Cursor.skip, Cursor.skip_succ]
    exact congrArg Cursor.advance (Call.path_readAll table calls (.ofFeed feed)).eq_skip
  rcases Turn.exists_blamed table options.expressions isInner atEnd _ with ⟨blamed, sublist, places⟩
  rw [← place] at places
  refine ⟨_, blamed, (yields_run table options c).1, fun sink other => eq_of_run_eq_ok, sublist,
    places, pairwise_errors ordered sublist places, ?_⟩
  intro front e back split
  exact eq_nil_of_position_eq ordered sublist places split

/-- A closing parenthesis is at fault, and after that the end of the input. -/
example :
    ((Session.run .standard ⟨none, false, true⟩ (Cursor.ofFeed (") a (".toList.map some))
      .unlimited).result.toOption.map fun report => report.errors.map ParseError.position) =
      some [⟨1, 1⟩, ⟨1, 6⟩] := by
  decide +kernel

end FormulaReader
