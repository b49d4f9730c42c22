import FormulaReader.Session.Basic

/-!
Sessions as scripts: what a session does is a function of the input alone, a list of events in which
reading, noting, writing and flushing alternate. The session performs this script whatever its sink
is, and a sink that never fails lets it come to the end.
-/

namespace FormulaReader

/-! ## The course of a session -/

/-- The turns from the cursor to the end of the input. -/
def Turn.all (table : Precedence) (expressions : Bool) (c : Cursor) : List Turn :=
  if c.token = .endOfInput then []
  else
    let found := Turn.read table expressions c
    found.turn :: Turn.all table expressions (found.turn.closed found.cursor)
termination_by c.size
decreasing_by exact Turn.size_closed_lt table expressions ‹_›

/-- The same turns, each with the cursor it left and the events on the way. -/
def Turn.course (table : Precedence) (expressions : Bool) (c : Cursor) : List TurnRead :=
  if c.token = .endOfInput then []
  else
    let found := Turn.read table expressions c
    found :: Turn.course table expressions (found.turn.closed found.cursor)
termination_by c.size
decreasing_by exact Turn.size_closed_lt table expressions ‹_›

section

variable {table : Precedence} {expressions : Bool} {c : Cursor}

theorem Turn.all_of_atEnd (atEnd : c.token = .endOfInput) :
    Turn.all table expressions c = [] := by
  rw [Turn.all, if_pos atEnd]

theorem Turn.all_of_notEnd (notEnd : c.token ≠ .endOfInput) :
    Turn.all table expressions c =
      (Turn.read table expressions c).turn ::
        Turn.all table expressions
          ((Turn.read table expressions c).turn.closed
            (Turn.read table expressions c).cursor) := by
  rw [Turn.all, if_neg notEnd]

theorem Turn.course_of_atEnd (atEnd : c.token = .endOfInput) :
    Turn.course table expressions c = [] := by
  rw [Turn.course, if_pos atEnd]

theorem Turn.course_of_notEnd (notEnd : c.token ≠ .endOfInput) :
    Turn.course table expressions c =
      Turn.read table expressions c ::
        Turn.course table expressions
          ((Turn.read table expressions c).turn.closed
            (Turn.read table expressions c).cursor) := by
  rw [Turn.course, if_neg notEnd]

theorem Turn.map_turn_course (table : Precedence) (expressions : Bool) (c : Cursor) :
    (Turn.course table expressions c).map TurnRead.turn = Turn.all table expressions c := by
  fun_induction Turn.all table expressions c with
  | case1 c atEnd => rw [course_of_atEnd atEnd, List.map_nil]
  | case2 c notEnd found ih => rw [course_of_notEnd notEnd, List.map_cons, ih]

theorem Turn.path_read (table : Precedence) (expressions : Bool) (c : Cursor) :
    c.Path (Turn.read table expressions c).events (Turn.read table expressions c).cursor := by
  have attempted : ∀ {α : Type} (p : Parser α) (kind : α → Item),
      c.Path (attempt p kind c).events (attempt p kind c).cursor := by
    intro α p kind
    rw [attempt]
    cases (p.run c).result <;> exact p.path c
  rw [read]
  split
  · exact .stay
  · exact attempted _ _
  · split
    · exact attempted _ _
    · exact .note _ .stay

end

/-! ## Performing events -/

namespace Reporting

variable {α β : Type}

/-- Does what the event says. Only writing and flushing take a sink. -/
def perform : Event → Reporting Unit
  | .wrote byte => writeByte byte
  | .flushed => flush
  | event => Activity.record [event]

def performAll : List Event → Reporting Unit
  | [] => pure ()
  | event :: later => do
      perform event
      performAll later

/-- The work is to perform the script, and then there is `a`. -/
def Performs (m : Reporting α) (script : List Event) (a : α) : Prop :=
  m = performAll script >>= fun _ => pure a

theorem performAll_append (script later : List Event) :
    performAll (script ++ later) = performAll script >>= fun _ => performAll later := by
  induction script with
  | nil => exact (pure_bind () fun _ => performAll later).symm
  | cons event script ih => rw [List.cons_append, performAll, ih, performAll, bind_assoc]

/-- A sink that never fails takes the whole script. -/
theorem performAll_unlimited (script : List Event) :
    performAll script .unlimited = ⟨.ok (), .unlimited, script⟩ := by
  induction script with
  | nil => rfl
  | cons event script ih =>
      have first : perform event .unlimited = ⟨.ok (), .unlimited, [event]⟩ := by
        cases event <;> rfl
      rw [performAll, Activity.bind_apply, first, Activity.andThen_ok, ih]
      rfl

theorem performs_pure (a : α) : Performs (pure a) [] a :=
  (pure_bind () fun _ => pure a).symm

theorem performs_perform (event : Event) : Performs (perform event) [event] () := by
  have single : performAll [event] = perform event := bind_pure (perform event)
  rw [Performs, single]
  exact (bind_pure (perform event)).symm

theorem Performs.bind {m : Reporting α} {next : α → Reporting β} {script later : List Event}
    {a : α} {b : β}
    (first : Performs m script a)
    (second : Performs (next a) later b) :
    Performs (m >>= next) (script ++ later) b := by
  unfold Performs at first second ⊢
  rw [first, bind_assoc, performAll_append, bind_assoc]
  simp only [pure_bind, second]

theorem Performs.andThen {m : Reporting Unit} {next : Reporting α} {script later : List Event}
    {a : α}
    (first : Performs m script ())
    (second : Performs next later a) :
    Performs (m >>= fun _ => next) (script ++ later) a :=
  first.bind second

theorem Performs.map {m : Reporting α} {script : List Event} {a : α} (f : α → β)
    (performs : Performs m script a) :
    Performs (f <$> m) script (f a) := by
  rw [map_eq_pure_bind, ← List.append_nil script]
  exact performs.bind (performs_pure (f a))

theorem Performs.outcome {m : Reporting α} {script : List Event} {a : α}
    (performs : Performs m script a) :
    m .unlimited = ⟨.ok a, .unlimited, script⟩ := by
  rw [performs, Activity.bind_apply, performAll_unlimited, Activity.andThen_ok,
    Activity.pure_apply, Outcome.after, List.append_nil]

theorem performs_flush : Performs flush [.flushed] () :=
  performs_perform .flushed

theorem performs_writeBytes (bytes : List UInt8) :
    Performs (writeBytes bytes) (bytes.map .wrote) () := by
  induction bytes with
  | nil => exact performs_pure ()
  | cons byte rest ih => exact (performs_perform (.wrote byte)).andThen ih

/-- What a parser leaves is performed by recording it. -/
theorem performs_record {c d : Cursor} {events : List Event} (path : c.Path events d) :
    Performs (Activity.record events) events () := by
  have parted : ∀ earlier later : List Event,
      (Activity.record (earlier ++ later) : Reporting Unit) =
        Activity.record earlier >>= fun _ => Activity.record later := fun _ _ => rfl
  induction path with
  | stay => exact performs_pure ()
  | advance _ ih =>
      rw [parted]
      exact ih.andThen (performs_perform (.read _))
  | note n _ ih =>
      rw [parted]
      exact ih.andThen (performs_perform (.noted n))

end Reporting

open Reporting

/-! ## The script of a session -/

/-- Writing the prompt, if there is one, and flushing. -/
def SessionOptions.asking (options : SessionOptions) : List Event :=
  match options.prompt with
  | none => []
  | some prompt => (Text.utf8 prompt).map .wrote ++ [.flushed]

/-- What happens in a turn: it is read, its report is written, and it is closed. -/
def TurnRead.script (showTree : Bool) (found : TurnRead) : List Event :=
  found.events ++ ((Text.utf8 (found.turn.report showTree)).map .wrote ++
    (found.turn.close.run found.cursor).events)

namespace Session

def turnsScript (table : Precedence) (options : SessionOptions) (c : Cursor) : List Event :=
  (Turn.course table options.expressions c).flatMap
      (fun found => options.asking ++ found.script options.showTree) ++
    options.asking

/-- What happens in a whole session. -/
def script (table : Precedence) (options : SessionOptions) (c : Cursor) : List Event :=
  let report := SessionReport.ofTurns (Turn.all table options.expressions c.advance)
  options.asking ++ .read c.advance.current :: (turnsScript table options c.advance ++
    [.noted (.finished report.items.length report.errors.length report.warnings), .flushed])

theorem turnsScript_of_notEnd {table : Precedence} {options : SessionOptions} {c : Cursor}
    (notEnd : c.token ≠ .endOfInput) :
    turnsScript table options c =
      options.asking ++ ((Turn.read table options.expressions c).script options.showTree ++
        turnsScript table options ((Turn.read table options.expressions c).turn.closed
          (Turn.read table options.expressions c).cursor)) := by
  rw [turnsScript, Turn.course_of_notEnd notEnd, List.flatMap_cons, List.append_assoc,
    List.append_assoc]
  rfl

theorem performs_ask (options : SessionOptions) : Performs (ask options) options.asking () := by
  rw [ask, SessionOptions.asking]
  cases options.prompt with
  | none => exact performs_pure ()
  | some prompt => exact (performs_writeBytes _).andThen performs_flush

theorem performs_turns (table : Precedence) (options : SessionOptions) (c : Cursor) :
    Performs (turns table options c) (turnsScript table options c)
      (Turn.all table options.expressions c) := by
  fun_induction Turn.all table options.expressions c with
  | case1 c atEnd =>
      rw [turns, if_pos atEnd, turnsScript, Turn.course_of_atEnd atEnd, List.flatMap_nil,
        List.nil_append, ← List.append_nil options.asking]
      exact (performs_ask options).andThen (performs_pure [])
  | case2 c notEnd found ih =>
      have reading := performs_record (Turn.path_read table options.expressions c)
      have reporting := performs_writeBytes (Text.utf8 (found.turn.report options.showTree))
      have closing := performs_record (found.turn.close.path found.cursor)
      have parted : ∀ later, found.script options.showTree ++ later = found.events ++
          ((Text.utf8 (found.turn.report options.showTree)).map .wrote ++
            ((found.turn.close.run found.cursor).events ++ later)) := by
        intro later
        rw [TurnRead.script, List.append_assoc, List.append_assoc]
      rw [turns, if_neg notEnd, turnsScript_of_notEnd notEnd, parted]
      exact (performs_ask options).andThen (reading.andThen (reporting.andThen
        (closing.andThen (ih.map (found.turn :: ·)))))

/-- A session performs its script, and then there is the report on its turns. -/
theorem performs_run (table : Precedence) (options : SessionOptions) (c : Cursor) :
    Performs (run table options c) (script table options c)
      (SessionReport.ofTurns (Turn.all table options.expressions c.advance)) := by
  let report := SessionReport.ofTurns (Turn.all table options.expressions c.advance)
  have noting := performs_perform
    (.noted (.finished report.items.length report.errors.length report.warnings))
  refine (performs_ask options).andThen ((performs_perform (.read c.advance.current)).andThen ?_)
  refine (performs_turns table options c.advance).bind ?_
  exact noting.andThen (performs_flush.andThen (performs_pure report))

end Session

/-! ## Sinks that never fail -/

/-- The activity succeeds with `a` on a sink that never fails, and leaves it so. -/
def Reporting.Yields {α : Type} (m : Reporting α) (a : α) : Prop :=
  (m .unlimited).result = .ok a ∧ (m .unlimited).state = .unlimited

theorem Reporting.Performs.yields {α : Type} {m : Reporting α} {script : List Event} {a : α}
    (performs : Performs m script a) :
    Yields m a := by
  rw [Yields, performs.outcome]
  exact ⟨rfl, rfl⟩

theorem Session.yields_turns (table : Precedence) (options : SessionOptions) (c : Cursor) :
    Yields (Session.turns table options c) (Turn.all table options.expressions c) :=
  (Session.performs_turns table options c).yields

theorem Session.yields_run (table : Precedence) (options : SessionOptions) (c : Cursor) :
    Yields (Session.run table options c)
      (SessionReport.ofTurns (Turn.all table options.expressions c.advance)) :=
  (Session.performs_run table options c).yields

end FormulaReader
