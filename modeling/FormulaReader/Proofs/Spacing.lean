import Mathlib.Data.List.Forall2
import FormulaReader.Proofs.Resynchronisation

/-!
Spacing: where the tokens of a text stand makes no difference. Two texts with the same tokens give
the same trees, the same items and the same errors, and a session says the same about both, except
for the positions at which errors are reported.
-/

namespace FormulaReader

/-! ## Cursors at the same tokens -/

/-- From both cursors on stand the same tokens. -/
def Cursor.Alike (c d : Cursor) : Prop :=
  ∀ i, (c.skip i).token = (d.skip i).token

theorem Cursor.alike_along {lexemes others : List Lexeme} {finish last : Lexeme}
    (same : lexemes.map Lexeme.token = others.map Lexeme.token)
    (ended : finish.token = last.token) :
    Alike (along lexemes finish) (along others last) := by
  intro i
  induction i generalizing lexemes others finish last with
  | zero =>
      cases lexemes with
      | nil =>
          rw [List.map_nil, eq_comm, List.map_eq_nil_iff] at same
          subst same
          exact ended
      | cons first later =>
          obtain ⟨other, more, rfl, sameToken, _⟩ := List.map_eq_cons_iff.mp same.symm
          exact sameToken.symm
  | succ i ih =>
      cases lexemes with
      | nil =>
          rw [List.map_nil, eq_comm, List.map_eq_nil_iff] at same
          subst same
          have nothing : ([] : List Lexeme).map Lexeme.token = ([] : List Lexeme).map Lexeme.token :=
            rfl
          exact ih nothing rfl
      | cons first later =>
          obtain ⟨other, more, rfl, _, further⟩ := List.map_eq_cons_iff.mp same.symm
          rw [skip, skip, advance_along_cons, advance_along_cons]
          exact ih further.symm ended

namespace Parser

variable {α : Type} {p : Parser α} {c d : Cursor}

/-- What is read at the same tokens stops at the same token, and with the same result but for the
position of an error. -/
theorem SteadyAt.alike (steady : p.SteadyAt c) (alike : c.Alike d) :
    (p.run d).state.token = (p.run c).state.token ∧
      (p.run d).result = (p.run c).result.mapError fun e => ⟨(p.run d).state.position, e.fault⟩ := by
  have stands : StandsIn (p.run c) c d := ⟨fun i _ => alike i, .inl (alike _)⟩
  have stopped : (p.run d).state.token = (p.run c).state.token := by
    rw [steady.state_eq stands, state_eq_skip p c, alike]
  refine ⟨stopped, (steady d stands).result.trans ?_⟩
  cases result : (p.run c).result with
  | ok a => rfl
  | error e =>
      have quoted : e.fault = e.fault.foundAt (p.run c).state.token :=
        congrArg ParseError.fault (steady.error_eq result)
      rw [Except.mapError, Except.mapError, Cursor.raise, stopped, ← quoted]

/-- On a whole input too only the tokens count. -/
theorem SteadyAt.whole_alike (steady : p.SteadyAt c.advance) (alike : c.advance.Alike d.advance) :
    ((whole p).run d).result.mapError ParseError.fault =
      ((whole p).run c).result.mapError ParseError.fault := by
  obtain ⟨stopped, mirrored⟩ := steady.alike alike
  rw [result_whole, result_whole, mirrored, stopped]
  cases (p.run c.advance).result with
  | error e => rfl
  | ok a =>
      simp only [Except.mapError, Except.bind]
      by_cases atEnd : (p.run c.advance).state.token = .endOfInput
      · rw [if_pos atEnd, if_pos atEnd]
      · rw [if_neg atEnd, if_neg atEnd, Cursor.raise, Cursor.raise, stopped]

end Parser

theorem Text.alike_advance {first second : String} (same : Text.tokens first = Text.tokens second) :
    (Cursor.ofFeed (first.toList.map some)).advance.Alike
      (Cursor.ofFeed (second.toList.map some)).advance := by
  obtain ⟨lexemes, finish, spelled, _, atEnd, start⟩ := Text.advance_ofFeed first
  obtain ⟨others, last, otherSpelled, _, otherAtEnd, otherStart⟩ := Text.advance_ofFeed second
  rw [start, otherStart]
  rw [spelled, otherSpelled] at same
  exact Cursor.alike_along same (atEnd.trans otherAtEnd.symm)

/-! ## Turns on the same tokens -/

/-- The turns are the same, errors at other positions apart. -/
inductive Turn.Alike : Turn → Turn → Prop
  | same (turn : Turn) : Alike turn turn
  | rejected (fault : Fault) (p q : Position) : Alike (.rejected ⟨p, fault⟩) (.rejected ⟨q, fault⟩)

namespace Turn

theorem alike_of_carried {turn other : Turn}
    (same : turn.carried (fun _ => .first) .endOfInput =
      other.carried (fun _ => .first) .endOfInput) :
    Alike turn other := by
  cases turn with
  | rejected e =>
      cases other with
      | rejected f =>
          obtain ⟨p, fault⟩ := e
          obtain ⟨q, otherFault⟩ := f
          have faults : fault.endingAt .endOfInput = otherFault.endingAt .endOfInput :=
            congrArg ParseError.fault (Turn.rejected.inj same)
          rw [Fault.endingAt_endOfInput, Fault.endingAt_endOfInput] at faults
          rw [faults]
          exact .rejected otherFault p q
      | _ => cases same
  | _ =>
      cases other <;> cases same
      exact .same _

theorem forall₂_alike (table : Precedence) (expressions : Bool)
    {lexemes others : List Lexeme} {finish last : Lexeme}
    (isInner : Lexeme.Inner lexemes)
    (otherInner : Lexeme.Inner others)
    (atEnd : finish.token = .endOfInput)
    (otherAtEnd : last.token = .endOfInput)
    (same : lexemes.map Lexeme.token = others.map Lexeme.token) :
    List.Forall₂ Alike (Turn.all table expressions (Cursor.along lexemes finish))
      (Turn.all table expressions (Cursor.along others last)) := by
  -- Both lists of turns become the same list once all errors are moved to one position.
  have moved := all_inputOf table expressions isInner atEnd
  have otherMoved := all_inputOf table expressions otherInner otherAtEnd
  rw [same, otherMoved, eq_comm, ← List.forall₂_eq_eq_eq, List.forall₂_map_left_iff,
    List.forall₂_map_right_iff] at moved
  exact moved.imp fun _ _ => alike_of_carried

end Turn

/-! ## Reports on the same tokens -/

namespace SessionReport

theorem ofTurns_alike {turns others : List Turn} (alike : List.Forall₂ Turn.Alike turns others) :
    (ofTurns turns).items = (ofTurns others).items ∧
      (ofTurns turns).errors.map ParseError.fault =
        (ofTurns others).errors.map ParseError.fault ∧
      (ofTurns turns).warnings = (ofTurns others).warnings := by
  induction alike with
  | nil => exact ⟨rfl, rfl, rfl⟩
  | @cons turn other later more first _ ih =>
      obtain ⟨items, errors, warnings⟩ := ih
      have split := ofTurns_append [turn] later
      have otherSplit := ofTurns_append [other] more
      rw [List.singleton_append] at split otherSplit
      rw [split, otherSplit, items, warnings, List.map_append, List.map_append, errors]
      cases first with
      | same turn => exact ⟨rfl, rfl, rfl⟩
      | rejected fault p q => exact ⟨rfl, rfl, rfl⟩

end SessionReport

/-! ## What is written -/

/-- The two texts are the same, or report the same fault, maybe at different positions. -/
inductive Text.SameButPlace : String → String → Prop
  | same (text : String) : SameButPlace text text
  | error (fault : Fault) (p q : Position) :
      SameButPlace ("Error: " ++ (p.text ++ ": " ++ fault.text) ++ "\n")
        ("Error: " ++ (q.text ++ ": " ++ fault.text) ++ "\n")

/-- The texts that a session writes, with a prompt before every turn and at the end of the input. -/
def SessionOptions.texts (options : SessionOptions) (turns : List Turn) : List String :=
  turns.flatMap (fun turn => options.prompt.toList ++ [turn.report options.showTree]) ++
    options.prompt.toList

theorem SessionOptions.texts_cons (options : SessionOptions) (turn : Turn) (turns : List Turn) :
    options.texts (turn :: turns) =
      options.prompt.toList ++ (turn.report options.showTree :: options.texts turns) := by
  rw [texts, List.flatMap_cons, List.append_assoc, List.append_assoc]
  rfl

theorem Turn.Alike.report {turn other : Turn} (alike : Alike turn other) (showTree : Bool) :
    Text.SameButPlace (turn.report showTree) (other.report showTree) := by
  cases alike with
  | same turn => exact .same _
  | rejected fault p q => exact .error fault p q

theorem SessionOptions.prompts_alike (options : SessionOptions) :
    List.Forall₂ Text.SameButPlace options.prompt.toList options.prompt.toList :=
  List.forall₂_same.mpr fun text _ => .same text

theorem SessionOptions.texts_alike (options : SessionOptions) {turns others : List Turn}
    (alike : List.Forall₂ Turn.Alike turns others) :
    List.Forall₂ Text.SameButPlace (options.texts turns) (options.texts others) := by
  refine List.rel_append (List.rel_flatMap alike ?_) options.prompts_alike
  intro turn other sameTurn
  exact List.rel_append options.prompts_alike (.cons (sameTurn.report options.showTree) .nil)

theorem Cursor.Path.flatMap_written {c d : Cursor} {events : List Event}
    (path : c.Path events d) :
    events.flatMap Event.written = [] := by
  induction path with
  | stay => rfl
  | advance _ ih => rw [List.flatMap_append, ih]; rfl
  | note n _ ih => rw [List.flatMap_append, ih]; rfl

theorem Event.flatMap_written_wrote (text : String) :
    ((Text.utf8 text).map Event.wrote).flatMap Event.written = Text.utf8 text := by
  rw [List.flatMap_map]
  exact List.flatMap_singleton' _

theorem SessionOptions.flatMap_written_asking (options : SessionOptions) :
    options.asking.flatMap Event.written = options.prompt.toList.flatMap Text.utf8 := by
  rw [asking]
  cases options.prompt with
  | none => rfl
  | some prompt =>
      rw [List.flatMap_append, Event.flatMap_written_wrote]
      rfl

theorem TurnRead.flatMap_written_script {c : Cursor} {found : TurnRead}
    (path : c.Path found.events found.cursor) (showTree : Bool) :
    (found.script showTree).flatMap Event.written = Text.utf8 (found.turn.report showTree) := by
  have closing := (found.turn.close.path found.cursor).flatMap_written
  rw [script, List.flatMap_append, List.flatMap_append, path.flatMap_written,
    Event.flatMap_written_wrote, closing, List.nil_append, List.append_nil]

namespace Session

theorem flatMap_written_turnsScript (table : Precedence) (options : SessionOptions) (c : Cursor) :
    (turnsScript table options c).flatMap Event.written =
      (options.texts (Turn.all table options.expressions c)).flatMap Text.utf8 := by
  fun_induction Turn.all table options.expressions c with
  | case1 c atEnd =>
      rw [turnsScript, Turn.course_of_atEnd atEnd, SessionOptions.texts]
      exact options.flatMap_written_asking
  | case2 c notEnd found ih =>
      have path := Turn.path_read table options.expressions c
      rw [turnsScript_of_notEnd notEnd, options.texts_cons, List.flatMap_append,
        List.flatMap_append, List.flatMap_append, List.flatMap_cons,
        options.flatMap_written_asking, TurnRead.flatMap_written_script path, ih]

/-- What a session writes is the prompt before it reads anything, and then the texts of its turns. -/
theorem flatMap_written_script (table : Precedence) (options : SessionOptions) (c : Cursor) :
    (script table options c).flatMap Event.written =
      (options.prompt.toList ++ options.texts (Turn.all table options.expressions c.advance)).flatMap
        Text.utf8 := by
  rw [script, List.flatMap_append, options.flatMap_written_asking, List.flatMap_cons,
    List.flatMap_append, flatMap_written_turnsScript, List.flatMap_append]
  exact congrArg (_ ++ ·) (List.append_nil _)

end Session

/-! ## Texts with the same tokens -/

/-- Layout does not matter. Of two texts with the same tokens either both are parsed, to the same
tree, or both are refused with the same fault, and a session finds and writes the same on both, the
positions of errors apart. -/
theorem layout_irrelevant (table : Precedence) {first second : String}
    (same : Text.tokens first = Text.tokens second) :
    (parseExpression first table).result.mapError ParseError.fault =
        (parseExpression second table).result.mapError ParseError.fault ∧
      (parseDefinition first table).result.mapError ParseError.fault =
        (parseDefinition second table).result.mapError ParseError.fault ∧
      ∀ options, ∃ (report other : SessionReport) (texts others : List String),
        let outcome := Session.run table options (Cursor.ofFeed (first.toList.map some)) .unlimited
        let otherOutcome :=
          Session.run table options (Cursor.ofFeed (second.toList.map some)) .unlimited
        outcome.result = .ok report ∧ otherOutcome.result = .ok other ∧
          report.items = other.items ∧
          report.errors.map ParseError.fault = other.errors.map ParseError.fault ∧
          report.warnings = other.warnings ∧
          outcome.events.flatMap Event.written = texts.flatMap Text.utf8 ∧
          otherOutcome.events.flatMap Event.written = others.flatMap Text.utf8 ∧
          List.Forall₂ Text.SameButPlace texts others := by
  have alike := Text.alike_advance same.symm
  refine ⟨?_, ?_, ?_⟩
  · exact (Parser.localAt_expression table _).steady.whole_alike alike
  · exact (Parser.steadyAt_definition table _).whole_alike alike
  · intro options
    obtain ⟨lexemes, finish, spelled, isInner, atEnd, start⟩ := Text.advance_ofFeed first
    obtain ⟨others, last, otherSpelled, otherInner, otherAtEnd, otherStart⟩ :=
      Text.advance_ofFeed second
    rw [spelled, otherSpelled] at same
    have turns := Turn.forall₂_alike table options.expressions isInner otherInner atEnd otherAtEnd
      same
    rw [← start, ← otherStart] at turns
    obtain ⟨items, errors, warnings⟩ := SessionReport.ofTurns_alike turns
    refine ⟨_, _, _, _, (Session.yields_run table options _).1,
      (Session.yields_run table options _).1, items, errors, warnings, ?_, ?_,
      List.rel_append options.prompts_alike (options.texts_alike turns)⟩
    · rw [(Session.performs_run table options _).outcome]
      exact Session.flatMap_written_script table options _
    · rw [(Session.performs_run table options _).outcome]
      exact Session.flatMap_written_script table options _

theorem refuses_alike_on_two_lines :
    Text.tokens "f(x)y" = Text.tokens "f (x)\n  y" ∧
      (parseExpression "f(x)y" .standard).result =
        .error ⟨⟨1, 5⟩, .unexpectedRest (.identifier "y")⟩ ∧
      (parseExpression "f (x)\n  y" .standard).result.mapError ParseError.fault =
        .error (.unexpectedRest (.identifier "y")) := by
  have same : Text.tokens "f(x)y" = Text.tokens "f (x)\n  y" := by decide +kernel
  have refused : (parseExpression "f(x)y" .standard).result =
      .error ⟨⟨1, 5⟩, .unexpectedRest (.identifier "y")⟩ := by
    decide +kernel
  have alike := (layout_irrelevant .standard same).1
  rw [refused] at alike
  exact ⟨same, refused, alike.symm⟩

end FormulaReader
