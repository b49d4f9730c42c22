import Mathlib.Data.List.Infix
import FormulaReader.Proofs.Resynchronisation
import FormulaReader.Proofs.Turns

/-!
Options: what a session is to report does not change what it parses. The prompt only stands between
the steps of a session, and whether expressions are items only matters from the first stray token on.
-/

namespace FormulaReader

/-! ## What is pulled -/

theorem Event.flatMap_pulled_wrote (bytes : List UInt8) :
    (bytes.map Event.wrote).flatMap Event.pulled = [] := by
  rw [List.flatMap_map, List.flatMap_eq_nil_iff]
  intro byte _
  rfl

theorem SessionOptions.flatMap_pulled_asking (options : SessionOptions) :
    options.asking.flatMap Event.pulled = [] := by
  rw [asking]
  cases options.prompt with
  | none => rfl
  | some prompt =>
      rw [List.flatMap_append, Event.flatMap_pulled_wrote]
      rfl

/-- What a turn pulls, to be read and to be closed. -/
def TurnRead.pulled (found : TurnRead) : List (Option Char) :=
  (found.events ++ (found.turn.close.run found.cursor).events).flatMap Event.pulled

theorem TurnRead.flatMap_pulled_script (showTree : Bool) (found : TurnRead) :
    (found.script showTree).flatMap Event.pulled = found.pulled := by
  rw [script, pulled, List.flatMap_append, List.flatMap_append, List.flatMap_append,
    Event.flatMap_pulled_wrote, List.nil_append]

/-! ## Steps -/

namespace Session

/-- What happens in a session step by step, the asking before each of the steps left out. At first the
first lexeme is read, then the turns of `course` are taken, and the last step ends the session. -/
def steps (showTree : Bool) (first : Lexeme) (course : List TurnRead) : List (List Event) :=
  let report := SessionReport.ofTurns (course.map TurnRead.turn)
  [.read first] :: (course.map (TurnRead.script showTree) ++
    [[.noted (.finished report.items.length report.errors.length report.warnings), .flushed]])

theorem run_eq_steps (table : Precedence) (options : SessionOptions) (c : Cursor) :
    let course := Turn.course table options.expressions c.advance
    run table options c .unlimited =
      ⟨.ok (.ofTurns (course.map TurnRead.turn)), .unlimited,
        (steps options.showTree c.advance.current course).flatMap (options.asking ++ ·)⟩ := by
  intro course
  have script_eq : script table options c =
      (steps options.showTree c.advance.current course).flatMap (options.asking ++ ·) := by
    simp [script, steps, turnsScript, course, Turn.map_turn_course, List.flatMap_map]
  rw [(performs_run table options c).outcome, script_eq, Turn.map_turn_course]

/-- Neither asking nor reporting pulls anything. -/
theorem flatMap_pulled_steps (options : SessionOptions) (first : Lexeme) (course : List TurnRead) :
    ((steps options.showTree first course).flatMap (options.asking ++ ·)).flatMap Event.pulled =
      first.pulled ++ course.flatMap TurnRead.pulled := by
  rw [List.flatMap_assoc]
  simp [steps, List.flatMap_append, options.flatMap_pulled_asking, List.flatMap_map,
    TurnRead.flatMap_pulled_script, Event.pulled]

end Session

/-! ## Expressions as items -/

namespace Turn

/-- Whether expressions are items is asked at a stray token only. -/
theorem read_eq_or_stray (table : Precedence) (c : Cursor) :
    read table false c = read table true c ∨ ∃ token, (read table false c).turn = .stray token := by
  rw [read, read]
  split
  · exact .inl rfl
  · exact .inl rfl
  · exact .inr ⟨_, rfl⟩

/-- The two courses are the same up to the first stray token of the former. -/
inductive PartsAtStray : List TurnRead → List TurnRead → Prop
  | atEnd : PartsAtStray [] []
  | stray {found : TurnRead} {token : Token} (later other : List TurnRead) :
      found.turn = .stray token → PartsAtStray (found :: later) other
  | turn {found : TurnRead} {later other : List TurnRead} :
      (∀ token, found.turn ≠ .stray token) → PartsAtStray later other →
      PartsAtStray (found :: later) (found :: other)

theorem partsAtStray_course (table : Precedence) (c : Cursor) :
    PartsAtStray (course table false c) (course table true c) := by
  fun_induction course table false c with
  | case1 c atEnd =>
      rw [course_of_atEnd atEnd]
      exact .atEnd
  | case2 c notEnd found ih =>
      by_cases isStray : ∃ token, found.turn = .stray token
      · obtain ⟨token, stray⟩ := isStray
        exact .stray _ _ stray
      · have same := (read_eq_or_stray table c).resolve_right isStray
        rw [course_of_notEnd notEnd, ← same]
        exact .turn (not_exists.mp isStray) ih

theorem PartsAtStray.exists_shared {course other : List TurnRead}
    (parts : PartsAtStray course other) :
    ∃ shared later further,
      course = shared ++ later ∧ other = shared ++ further ∧
        (∀ found ∈ shared, ∀ token, found.turn ≠ .stray token) ∧
        (later = [] ∧ further = [] ∨
          ∃ found rest token, later = found :: rest ∧ found.turn = .stray token) := by
  induction parts with
  | atEnd => exact ⟨[], [], [], rfl, rfl, by simp, .inl ⟨rfl, rfl⟩⟩
  | @stray found token later other isStray =>
      exact ⟨[], _, _, rfl, rfl, by simp, .inr ⟨found, later, token, rfl, isStray⟩⟩
  | @turn found later other notStray _ ih =>
      obtain ⟨shared, later, further, rfl, rfl, noStray, ends⟩ := ih
      exact ⟨found :: shared, later, further, rfl, rfl,
        List.forall_mem_cons.mpr ⟨notStray, noStray⟩, ends⟩

/-- Without warnings there is no stray token. -/
theorem PartsAtStray.eq_of_warnings_eq_zero {course other : List TurnRead}
    (parts : PartsAtStray course other)
    (silent : (SessionReport.ofTurns (course.map TurnRead.turn)).warnings = 0) :
    course = other := by
  induction parts with
  | atEnd => rfl
  | stray later other isStray => simp [SessionReport.ofTurns, isStray] at silent
  | @turn found later other notStray _ ih =>
      have split := SessionReport.ofTurns_append [found.turn] (later.map TurnRead.turn)
      rw [List.map_cons, ← List.singleton_append, split] at silent
      exact congrArg _ (ih (Nat.eq_zero_of_add_eq_zero_left silent))

end Turn

namespace Session

/-- The steps before the last one, where the course has not been gone to its end. -/
theorem turnSteps_isPrefix (showTree : Bool) (first : Lexeme) (shared later : List TurnRead) :
    [.read first] :: shared.map (TurnRead.script showTree) <+:
      steps showTree first (shared ++ later) := by
  rw [steps, List.map_append, List.append_assoc]
  exact List.prefix_append _ _

/-- A session is reported on as its options say, and only reported. Which items, errors and warnings it
finds and what it pulls is the same for every prompt and whether or not trees are shown. With a prompt
it does what it does without one, except that it writes the prompt and flushes before every step.
Without expressions as items it takes the same turns as with them up to the first stray token, and
all the same turns if there are no warnings. -/
theorem options_only_report (table : Precedence) (c : Cursor) :
    let outcome := fun prompt showTree expressions =>
      run table ⟨prompt, showTree, expressions⟩ c .unlimited
    let first := c.advance.current
    let course := fun expressions => Turn.course table expressions c.advance
    (∀ prompt showTree expressions,
      (outcome prompt showTree expressions).result =
          .ok (.ofTurns ((course expressions).map TurnRead.turn)) ∧
        (outcome prompt showTree expressions).events.flatMap Event.pulled =
          (outcome none false expressions).events.flatMap Event.pulled) ∧
      (∀ showTree expressions,
        let taken := steps showTree first (course expressions)
        (outcome none showTree expressions).events = taken.flatten ∧
          ∀ prompt, (outcome (some prompt) showTree expressions).events =
            taken.flatMap ((Text.utf8 prompt).map .wrote ++ [.flushed] ++ ·)) ∧
      ∀ prompt showTree,
        let off := outcome prompt showTree false
        let on := outcome prompt showTree true
        let asking := SessionOptions.asking ⟨prompt, showTree, false⟩
        (∃ shared later further,
          course false = shared ++ later ∧ course true = shared ++ further ∧
            (∀ found ∈ shared, ∀ token, found.turn ≠ .stray token) ∧
            (later = [] ∧ further = [] ∨
              ∃ found rest token, later = found :: rest ∧ found.turn = .stray token) ∧
            let before := ([.read first] :: shared.map (TurnRead.script showTree)).flatMap (asking ++ ·)
            before <+: off.events ∧ before <+: on.events) ∧
          ∀ report, off.result = .ok report → report.warnings = 0 → off = on := by
  intro outcome first course
  have performed : ∀ prompt showTree expressions,
      outcome prompt showTree expressions =
        ⟨.ok (.ofTurns ((course expressions).map TurnRead.turn)), .unlimited,
          (steps showTree first (course expressions)).flatMap
            (SessionOptions.asking ⟨prompt, showTree, expressions⟩ ++ ·)⟩ :=
    fun prompt showTree expressions => run_eq_steps table ⟨prompt, showTree, expressions⟩ c
  refine ⟨?_, ?_, ?_⟩
  · intro prompt showTree expressions
    rw [performed, performed]
    refine ⟨rfl, ?_⟩
    exact (flatMap_pulled_steps ⟨prompt, showTree, expressions⟩ first _).trans
      (flatMap_pulled_steps ⟨none, false, expressions⟩ first _).symm
  · intro showTree expressions taken
    rw [performed]
    refine ⟨List.flatMap_id', ?_⟩
    intro prompt
    rw [performed]
    rfl
  · intro prompt showTree off on asking
    have offRun : off = _ := performed prompt showTree false
    have onRun : on = _ := performed prompt showTree true
    have parts : Turn.PartsAtStray (course false) (course true) :=
      Turn.partsAtStray_course table c.advance
    refine ⟨?_, ?_⟩
    · obtain ⟨shared, later, further, offCourse, onCourse, noStray, ends⟩ := parts.exists_shared
      refine ⟨shared, later, further, offCourse, onCourse, noStray, ends, ?_, ?_⟩
      · rw [offRun, offCourse]
        exact (turnSteps_isPrefix showTree first shared later).flatMap _
      · rw [onRun, onCourse]
        exact (turnSteps_isPrefix showTree first shared further).flatMap _
    · intro report reported silent
      rw [offRun] at reported
      cases reported
      rw [offRun, onRun, parts.eq_of_warnings_eq_zero silent]
      rfl

theorem prompts_for_definition :
    let outcome := fun expressions =>
      run .standard ⟨some standardPrompt, true, expressions⟩
        (Cursor.ofFeed ("def f(x) x;".toList.map some)) .unlimited
    let definition : Definition := ⟨⟨"f", ["x"]⟩, .var "x"⟩
    (outcome false).result = .ok ⟨[.definition definition], [], 0⟩ ∧
      outcome false = outcome true := by
  intro outcome definition
  have found : (outcome false).result = .ok ⟨[.definition definition], [], 0⟩ := by decide +kernel
  obtain ⟨_, _, flags⟩ :=
    options_only_report .standard (Cursor.ofFeed ("def f(x) x;".toList.map some))
  exact ⟨found, (flags (some standardPrompt) true).2 _ found rfl⟩

end Session

end FormulaReader
