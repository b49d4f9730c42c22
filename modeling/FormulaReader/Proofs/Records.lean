import Mathlib.Data.List.Forall2
import FormulaReader.Proofs.Notes
import FormulaReader.Proofs.Progress
import FormulaReader.Proofs.Wording

/-!
Records: the log of a session is a faithful record of it. Every lexeme that was read, every stray
token, every definition and every token that was dropped has its record, each kind in the order of
the input and no more of them, and the last record gives the counts.
-/

namespace FormulaReader

/-! ## What a record begins with -/

namespace LogRecord

/-- Whether the text of the record begins with `opening`. -/
def beginsWith (record : LogRecord) (opening : String) : Bool :=
  opening.toList.isPrefixOf record.text.toList

/-- What the texts of the records begin with, one for every kind. -/
def heads : List String :=
  ["line ", "parsed prototype ", "parsed definition of ", "recovering: dropping ",
    "input finished: ", "parsing "]

/-- The opening is not the beginning of another head, and no other head is the beginning of it. -/
def Telling (opening : String) : Prop :=
  ∀ head ∈ heads, head = opening ∨
    ¬ opening.toList <+: head.toList ∧ ¬ head.toList <+: opening.toList

instance (opening : String) : Decidable (Telling opening) :=
  inferInstanceAs (Decidable (∀ head ∈ heads, _))

theorem telling_parsed_definition : Telling "parsed definition of " := by
  decide +kernel

theorem telling_recovering : Telling "recovering: dropping " := by
  decide +kernel

/-- A telling opening tells the records of one kind from all others. -/
theorem Telling.beginsWith_eq {record : LogRecord} {head rest opening : String}
    (telling : Telling opening)
    (isHead : head ∈ heads)
    (shape : record.text = head ++ rest) :
    record.beginsWith opening = decide (head = opening) := by
  rw [beginsWith, shape, String.toList_append, Bool.eq_iff_iff, List.isPrefixOf_iff_prefix,
    decide_eq_true_iff]
  constructor
  · intro begins
    refine (telling head isHead).resolve_right fun apart => ?_
    rcases List.prefix_or_prefix_of_prefix begins (List.prefix_append _ _) with shorter | longer
    · exact apart.1 shorter
    · exact apart.2 longer
  · rintro rfl
    exact List.prefix_append _ _

end LogRecord

open LogRecord

/-- The records are those of the lexemes, one for each, in which its token is shown. -/
def LogRecord.Show (record : Lexeme → String → LogRecord) : List Lexeme → List LogRecord → Prop :=
  List.Forall₂ fun lexeme written =>
    ∃ shown, lexeme.token.Shown shown ∧ written = record lexeme shown

theorem LogRecord.show_map (record : Lexeme → String → LogRecord) (lexemes : List Lexeme) :
    Show record lexemes (lexemes.map fun lexeme => record lexeme lexeme.token.text) := by
  apply List.forall₂_map_right_iff.mpr
  apply List.forall₂_same.mpr
  intro lexeme _
  exact ⟨lexeme.token.text, Token.shown_iff.mpr rfl, rfl⟩

theorem Position.exists_text_eq (p : Position) : ∃ rest, p.text = "line " ++ rest :=
  ⟨_, by rw [text, String.append_assoc, String.append_assoc]⟩

/-- The record of a lexeme that was read. -/
def Lexeme.logRecord (lexeme : Lexeme) : LogRecord :=
  ⟨.trace, .scanner, lexeme.start.text ++ ": " ++ lexeme.token.text⟩

theorem Lexeme.beginsWith_logRecord (lexeme : Lexeme) {opening : String}
    (telling : Telling opening) :
    lexeme.logRecord.beginsWith opening = decide ("line " = opening) := by
  obtain ⟨rest, position⟩ := lexeme.start.exists_text_eq
  have shape : lexeme.logRecord.text = "line " ++ (rest ++ (": " ++ lexeme.token.text)) := by
    rw [logRecord, position, String.append_assoc, String.append_assoc]
  exact telling.beginsWith_eq (by simp [heads]) shape

namespace Note

/-- What the record of a note begins with. -/
def head : Note → String
  | .readPrototype _ => "parsed prototype "
  | .readDefinition _ => "parsed definition of "
  | .skipping _ _ => "line "
  | .dropping _ => "recovering: dropping "
  | .finished _ _ _ => "input finished: "
  | .opening _ _ => "parsing "

theorem head_mem_heads (n : Note) : n.head ∈ heads := by
  cases n <;> simp [head, heads]

theorem exists_text_eq (n : Note) : ∃ rest, n.logRecord.text = n.head ++ rest := by
  cases n with
  | skipping position token =>
      obtain ⟨rest, start⟩ := position.exists_text_eq
      refine ⟨rest ++ (": skipping " ++ (token.text ++ " at top level")), ?_⟩
      rw [logRecord, head, start, String.append_assoc, String.append_assoc, String.append_assoc]
  | opening path bytes =>
      refine ⟨path ++ (" (" ++ (Text.decimal bytes ++ " bytes)")), ?_⟩
      rw [logRecord, head, String.append_assoc, String.append_assoc, String.append_assoc]
  | _ => exact ⟨_, rfl⟩

theorem beginsWith_logRecord (n : Note) {opening : String} (telling : Telling opening) :
    n.logRecord.beginsWith opening = decide (n.head = opening) := by
  obtain ⟨rest, shape⟩ := n.exists_text_eq
  exact telling.beginsWith_eq n.head_mem_heads shape

end Note

/-! ## The log of events -/

/-- A log that shows everything leaves nothing out. -/
theorem logOf_trace (events : List Event) :
    logOf .trace events = events.filterMap Event.logRecord? := by
  rw [logOf, List.filter_eq_self]
  intro record _
  cases record.level <;> rfl

theorem logOf_trace_append (earlier later : List Event) :
    logOf .trace (earlier ++ later) = logOf .trace earlier ++ logOf .trace later := by
  rw [logOf_trace, logOf_trace, logOf_trace, List.filterMap_append]

/-- What is traced is what was read. -/
theorem filter_trace_logOf (events : List Event) :
    (logOf .trace events).filter (·.level = .trace) =
      (Event.lexemes events).map Lexeme.logRecord := by
  rw [logOf_trace]
  induction events with
  | nil => rfl
  | cons event later ih =>
      cases event with
      | read lexeme => exact congrArg (lexeme.logRecord :: ·) ih
      | noted n => cases n <;> exact ih
      | _ => exact ih

/-- Other records come from notes. -/
theorem filter_logOf {chosen : LogRecord → Bool}
    (notTraced : ∀ lexeme : Lexeme, chosen lexeme.logRecord = false) (events : List Event) :
    (logOf .trace events).filter chosen =
      ((Event.notes events).map Note.logRecord).filter chosen := by
  rw [logOf_trace]
  induction events with
  | nil => rfl
  | cons event later ih =>
      cases event with
      | read lexeme =>
          have left : ¬ chosen lexeme.logRecord = true := by
            rw [notTraced lexeme]
            exact Bool.false_ne_true
          exact (List.filter_cons_of_neg left).trans ih
      | noted n =>
          have first : ∀ records : List LogRecord, (n.logRecord :: records).filter chosen =
              [n.logRecord].filter chosen ++ records.filter chosen :=
            List.filter_append [n.logRecord]
          exact (first _).trans ((congrArg _ ih).trans (first _).symm)
      | _ => exact ih

/-! ## Turns -/

/-- The record of a definition that has been read. -/
def Definition.logRecord (d : Definition) : LogRecord :=
  ⟨.debug, .parser, "parsed definition of " ++ d.prototype.name⟩

/-- The record of a prototype that has been read. -/
def Prototype.logRecord (p : Prototype) : LogRecord :=
  ⟨.debug, .parser,
    "parsed prototype " ++ (p.name ++ "(" ++ ", ".intercalate p.parameters ++ ")")⟩

theorem Note.logRecord_readPrototype (p : Prototype) :
    (readPrototype p).logRecord = p.logRecord := by
  rw [logRecord, Prototype.text_eq, Prototype.logRecord]

/-- The record of a lexeme that no item begins with. -/
def Lexeme.strayRecord (lexeme : Lexeme) : LogRecord :=
  ⟨.warning, .session,
    lexeme.start.text ++ ": skipping " ++ lexeme.token.text ++ " at top level"⟩

/-- The record of a lexeme that is dropped because an item failed there. -/
def Lexeme.droppedRecord (lexeme : Lexeme) : LogRecord :=
  ⟨.debug, .session, "recovering: dropping " ++ lexeme.token.text⟩

/-- What a parser records of `definitions`: the prototype of each, directly followed by its end.
Other prototypes may be between, the bodies of which have failed. -/
inductive Attests : List Definition → List LogRecord → Prop
  | nothing : Attests [] []
  | prototype (p : Prototype) {definitions : List Definition} {records : List LogRecord} :
      Attests definitions records → Attests definitions (p.logRecord :: records)
  | definition (d : Definition) {definitions : List Definition} {records : List LogRecord} :
      Attests definitions records →
      Attests (d :: definitions) (d.prototype.logRecord :: d.logRecord :: records)

namespace Turn

/-- Those of the lexemes of a turn that are stray. -/
def strays (segment : List Lexeme) : Turn → List Lexeme
  | .stray _ => segment
  | _ => []

def definition? : Turn → Option Definition
  | .item (.definition d) => some d
  | _ => none

namespace Notes

variable {stop : Lexeme} {turn : Turn} {notes : List Note}

theorem filter_warning (noted : Notes stop turn notes) :
    (notes.map Note.logRecord).filter (·.level = .warning) =
      (turn.strays [stop]).map Lexeme.strayRecord := by
  cases noted <;> rfl

theorem filter_parsed_definition (noted : Notes stop turn notes) :
    (notes.map Note.logRecord).filter (·.beginsWith "parsed definition of ") =
      turn.definition?.toList.map Definition.logRecord := by
  have told := fun n : Note => n.beginsWith_logRecord telling_parsed_definition
  cases noted <;> simp [told, Note.head, definition?]; rfl

theorem filter_recovering (noted : Notes stop turn notes) :
    (notes.map Note.logRecord).filter (·.beginsWith "recovering: dropping ") =
      (turn.error?.map fun _ => stop).toList.map Lexeme.droppedRecord := by
  have told := fun n : Note => n.beginsWith_logRecord telling_recovering
  cases noted <;> simp [told, Note.head, error?] <;> rfl

theorem attests {definitions : List Definition} {records : List LogRecord}
    (noted : Notes stop turn notes)
    (later : Attests definitions records) :
    Attests (turn.definition?.toList ++ definitions)
      ((notes.map Note.logRecord).filter (·.origin = .parser) ++ records) := by
  cases noted with
  | definition d =>
      rw [List.map_cons, Note.logRecord_readPrototype]
      exact .definition d later
  | rejectedBody e p =>
      rw [List.map_cons, Note.logRecord_readPrototype]
      exact .prototype p later
  | _ => exact later

end Notes

/-! ## Turns in a row -/

variable {course : List TurnRead}

/-- If each turn leaves its records of a kind, all turns leave them one turn after another. -/
theorem filter_notes_flatMap {β : Type} {chosen : LogRecord → Bool} {view : TurnRead → List β}
    {record : β → LogRecord}
    (each : ∀ found ∈ course,
      (found.notes.map Note.logRecord).filter chosen = (view found).map record) :
    ((course.flatMap TurnRead.notes).map Note.logRecord).filter chosen =
      (course.flatMap view).map record := by
  calc ((course.flatMap TurnRead.notes).map Note.logRecord).filter chosen
      = course.flatMap fun found => (found.notes.map Note.logRecord).filter chosen := by
          rw [List.map_flatMap, List.filter_flatMap]
    _ = course.flatMap fun found => (view found).map record := List.flatMap_congr each
    _ = (course.flatMap view).map record := List.map_flatMap.symm

theorem attests_flatMap
    (each : ∀ found ∈ course, Notes found.cursor.current found.turn found.notes) :
    Attests ((course.map TurnRead.turn).filterMap definition?)
      (((course.flatMap TurnRead.notes).map Note.logRecord).filter (·.origin = .parser)) := by
  rw [List.filterMap_eq_flatMap_toList]
  induction course with
  | nil => exact .nothing
  | cons found later ih =>
      obtain ⟨first, rest⟩ := List.forall_mem_cons.mp each
      rw [List.map_cons, List.flatMap_cons, List.flatMap_cons, List.map_append, List.filter_append]
      exact first.attests (ih rest)

variable {finish : Lexeme}

theorem Stops.strays_eq {found : TurnRead} {segment rest : List Lexeme}
    (stops : Stops finish found segment rest) :
    found.turn.strays [found.cursor.current] = found.turn.strays segment := by
  cases stops <;> rfl

/-- The stray lexemes are those of the segments. -/
theorem strays_of_readings {readings : List (List Lexeme × TurnRead)}
    (each : ∀ front segment found back, readings = front ++ (segment, found) :: back →
      Stops finish found segment (back.flatMap Prod.fst)) :
    ((readings.map Prod.snd).flatMap fun found => found.turn.strays [found.cursor.current]) =
      (readings.map (Prod.map id TurnRead.turn)).flatMap fun piece => piece.2.strays piece.1 := by
  rw [List.flatMap_map, List.flatMap_map]
  apply List.flatMap_congr
  rintro ⟨segment, found⟩ member
  obtain ⟨front, back, split⟩ := List.append_of_mem member
  exact (each front segment found back split).strays_eq

end Turn

theorem SessionReport.definitions_ofTurns (turns : List Turn) :
    (ofTurns turns).definitions = turns.filterMap Turn.definition? := by
  rw [definitions, ofTurns, List.filterMap_filterMap]
  congr 1
  funext turn
  cases turn with
  | item parsed => cases parsed <;> rfl
  | _ => rfl

/-- There is a warning for each stray lexeme. -/
theorem SessionReport.warnings_ofTurns (course : List TurnRead) :
    (ofTurns (course.map TurnRead.turn)).warnings =
      (course.flatMap fun found => found.turn.strays [found.cursor.current]).length := by
  induction course with
  | nil => rfl
  | cons found later ih =>
      have first : (ofTurns ((found :: later).map TurnRead.turn)).warnings =
          (ofTurns (later.map TurnRead.turn)).warnings +
            (found.turn.strays [found.cursor.current]).length := by
        rw [List.map_cons, ofTurns, List.countP_cons]
        cases found.turn <;> rfl
      rw [first, ih, List.flatMap_cons, List.length_append, Nat.add_comm]

/-! ## Sessions -/

namespace Session

variable {table : Precedence} {options : SessionOptions} {c : Cursor}

/-- A session that ends well has performed its script. -/
theorem events_of_run_eq_ok {sink : Sink} {report : SessionReport}
    (succeeded : (run table options c sink).result = .ok report) :
    (run table options c sink).events = script table options c := by
  have performs := performs_run table options c
  rw [performs.result_eq sink] at succeeded
  rw [performs.events_eq sink]
  rcases Reporting.performAll_cases (script table options c) sink with
    ⟨_, all, _⟩ | ⟨_, _, _, _, fault, _, _, failed, _⟩
  · exact all
  · rw [failed] at succeeded
    cases succeeded

/-- The last record gives the counts. -/
theorem getLast?_logOf_script (table : Precedence) (options : SessionOptions) (c : Cursor) :
    let report := SessionReport.ofTurns (Turn.all table options.expressions c.advance)
    (logOf .trace (script table options c)).getLast? =
      some ⟨.debug, .session, "input finished: " ++ report.summary⟩ := by
  intro report
  have parted : script table options c = (options.asking ++
      .read c.advance.current :: turnsScript table options c.advance) ++
        [.noted (.finished report.items.length report.errors.length report.warnings),
          .flushed] := by
    rw [script, List.append_assoc, List.cons_append]
  have last : ∀ n, logOf .trace [.noted n, .flushed] = [n.logRecord] := by
    intro n
    rw [logOf_trace]
    rfl
  rw [parted, logOf_trace_append, last, List.getLast?_concat]
  rfl

/-- All records but those of what was read and the last one are those of the turns. -/
theorem filter_logOf_script (table : Precedence) (options : SessionOptions) (c : Cursor)
    {chosen : LogRecord → Bool}
    (notTraced : ∀ lexeme : Lexeme, chosen lexeme.logRecord = false)
    (notLast : ∀ items errors warnings,
      chosen (Note.finished items errors warnings).logRecord = false) :
    (logOf .trace (script table options c)).filter chosen =
      (((Turn.course table options.expressions c.advance).flatMap TurnRead.notes).map
        Note.logRecord).filter chosen := by
  have last : ∀ items errors warnings,
      ([Note.finished items errors warnings].map Note.logRecord).filter chosen = [] := by
    intro items errors warnings
    apply List.filter_cons_of_neg
    rw [notLast]
    exact Bool.false_ne_true
  rw [filter_logOf notTraced, notes_script, List.map_append, List.filter_append, last,
    List.append_nil]

theorem filter_beginsWith_script (table : Precedence) (options : SessionOptions) (c : Cursor)
    {opening : String}
    (telling : Telling opening)
    (notTraced : "line " ≠ opening)
    (notLast : "input finished: " ≠ opening) :
    (logOf .trace (script table options c)).filter (·.beginsWith opening) =
      (((Turn.course table options.expressions c.advance).flatMap TurnRead.notes).map
        Note.logRecord).filter (·.beginsWith opening) := by
  apply filter_logOf_script
  · intro lexeme
    rw [lexeme.beginsWith_logRecord telling]
    exact decide_eq_false notTraced
  · intro items errors warnings
    rw [Note.beginsWith_logRecord _ telling]
    exact decide_eq_false notLast

theorem filter_warning_script (table : Precedence) (options : SessionOptions) (c : Cursor) :
    (logOf .trace (script table options c)).filter (·.level = .warning) =
      ((Turn.course table options.expressions c.advance).flatMap fun found =>
        found.turn.strays [found.cursor.current]).map Lexeme.strayRecord := by
  rw [filter_logOf_script table options c (fun _ => rfl) fun _ _ _ => rfl]
  exact Turn.filter_notes_flatMap fun found member =>
    (Turn.notes_of_mem_course member).filter_warning

theorem filter_parsed_definition_script (table : Precedence) (options : SessionOptions)
    (c : Cursor) :
    let report := SessionReport.ofTurns (Turn.all table options.expressions c.advance)
    (logOf .trace (script table options c)).filter (·.beginsWith "parsed definition of ") =
      report.definitions.map Definition.logRecord := by
  intro report
  have definitions : report.definitions =
      (Turn.course table options.expressions c.advance).flatMap fun found =>
        found.turn.definition?.toList := by
    rw [SessionReport.definitions_ofTurns, ← Turn.map_turn_course,
      List.filterMap_eq_flatMap_toList, List.flatMap_map]
  rw [filter_beginsWith_script table options c telling_parsed_definition (by decide) (by decide),
    definitions]
  exact Turn.filter_notes_flatMap fun found member =>
    (Turn.notes_of_mem_course member).filter_parsed_definition

theorem attests_script (table : Precedence) (options : SessionOptions) (c : Cursor) :
    let report := SessionReport.ofTurns (Turn.all table options.expressions c.advance)
    Attests report.definitions
      ((logOf .trace (script table options c)).filter (·.origin = .parser)) := by
  intro report
  rw [SessionReport.definitions_ofTurns, ← Turn.map_turn_course,
    filter_logOf_script table options c (fun _ => rfl) fun _ _ _ => rfl]
  exact Turn.attests_flatMap fun found member => Turn.notes_of_mem_course member

theorem filter_recovering_script (table : Precedence) (options : SessionOptions) (c : Cursor) :
    (logOf .trace (script table options c)).filter (·.beginsWith "recovering: dropping ") =
      ((Turn.course table options.expressions c.advance).filterMap TurnRead.blamed?).map
        Lexeme.droppedRecord := by
  rw [filter_beginsWith_script table options c telling_recovering (by decide) (by decide),
    List.filterMap_eq_flatMap_toList]
  exact Turn.filter_notes_flatMap fun found member =>
    (Turn.notes_of_mem_course member).filter_recovering

/-- What a session reads: each lexeme, and the end once more if an error there is the last one. -/
theorem lexemes_script (table : Precedence) (options : SessionOptions) {feed : Feed}
    {lexemes : List Lexeme} {finish : Lexeme}
    (shape : (Scanner.start feed).lexemes = lexemes ++ [finish])
    (isInner : Lexeme.Inner lexemes)
    (atEnd : finish.token = .endOfInput) :
    let c := Cursor.ofFeed feed
    let report := SessionReport.ofTurns (Turn.all table options.expressions c.advance)
    Event.lexemes (script table options c) =
      lexemes ++ finish ::
        if report.errors.getLast?.map ParseError.position = some finish.start then
          [finish.endAfter]
        else [] := by
  intro c report
  have start : (Cursor.ofFeed feed).advance = Cursor.along lexemes finish := by
    rw [Cursor.ofFeed, shape, Cursor.advance_before]
  have segmented := Turn.segmented_course table options.expressions isInner atEnd
  have ordered := Scanner.pairwise_lexemes feed
  rw [shape] at ordered
  have counted := count_blamed ordered segmented.blamed_sublist
  rw [← segmented.map_position_errors, List.getLast?_map, ← start, Turn.map_turn_course] at counted
  have length := length_lexemes_script table options isInner atEnd start
  rw [counted] at length
  have calls : Event.lexemes (script table options c) =
      (Scanner.start feed).calls (Event.lexemes (script table options c)).length := by
    rcases exists_readsTo_run table options c with ⟨last, reads⟩
    rcases reads .unlimited with ⟨trail, reached, path, same, _⟩
    have along := path.lexemes_eq.1
    rw [← same, (performs_run table options c).outcome] at along
    exact along
  have all := (Scanner.start feed).calls_length_eq List.prefix_rfl
  rw [shape, List.length_append] at all
  rw [calls, length]
  split
  · have beyond : ((Cursor.before (lexemes ++ [finish])).skip (lexemes.length + 2)).current =
        finish.endAfter := by
      have reached := Cursor.skip_along_append lexemes [] finish
      rw [List.append_nil] at reached
      rw [Cursor.skip, Cursor.advance_before, Cursor.skip_succ, reached]
      rfl
    rw [Scanner.calls_succ, shape, beyond]
    exact (congrArg (· ++ [finish.endAfter]) all).trans (List.append_assoc _ _ _)
  · exact all

/-- What is traced of it. The end has one record, whether it is met again or not. -/
theorem filter_trace_script (table : Precedence) (options : SessionOptions) {feed : Feed}
    {lexemes : List Lexeme} {finish : Lexeme}
    (shape : (Scanner.start feed).lexemes = lexemes ++ [finish])
    (isInner : Lexeme.Inner lexemes)
    (atEnd : finish.token = .endOfInput) :
    let c := Cursor.ofFeed feed
    let report := SessionReport.ofTurns (Turn.all table options.expressions c.advance)
    let further :=
      if report.errors.getLast?.map ParseError.position = some finish.start then [finish] else []
    (logOf .trace (script table options c)).filter (·.level = .trace) =
      (lexemes ++ finish :: further).map Lexeme.logRecord := by
  intro c report further
  have again : finish.endAfter.logRecord = finish.logRecord := by
    rw [Lexeme.logRecord, Lexeme.logRecord, atEnd]
    rfl
  rw [filter_trace_logOf, lexemes_script table options shape isInner atEnd, List.map_append,
    List.map_append, List.map_cons, List.map_cons]
  by_cases last : report.errors.getLast?.map ParseError.position = some finish.start
  · rw [if_pos last, show further = [finish] from if_pos last, List.map_singleton,
      List.map_singleton, again]
  · rw [if_neg last, show further = [] from if_neg last]

/-- The log of a session that ends well accounts for all of it. What is traced are the lexemes in
order, through the end of the input, which is met once more if the last error stands there. The
warnings are about the stray lexemes. Each definition has its record, which directly follows that of
its prototype in what the parser notes. For each error there is a record of the lexeme at which it
stands. The last record gives the counts. -/
theorem log_accounts_for_run (table : Precedence) (options : SessionOptions) (feed : Feed)
    (sink : Sink) {report : SessionReport}
    (succeeded : (run table options (Cursor.ofFeed feed) sink).result = .ok report) :
    ∃ (lexemes : List Lexeme) (finish : Lexeme) (segments : List (List Lexeme × Turn))
      (dropped : List Lexeme),
      (Scanner.start feed).lexemes = lexemes ++ [finish] ∧
      Lexeme.Inner lexemes ∧ finish.token = .endOfInput ∧
      ((lexemes ++ [finish]).Pairwise fun lexeme other => lexeme.start.Before other.start) ∧
      segments.flatMap Prod.fst = lexemes ∧
      (∀ front segment turn back, segments = front ++ (segment, turn) :: back →
        segment ≠ [] ∧ Turn.Covers table options.expressions finish turn segment
          (back.flatMap Prod.fst)) ∧
      report = SessionReport.ofTurns (segments.map Prod.snd) ∧
      dropped.Sublist (lexemes ++ [finish]) ∧
      report.errors.map ParseError.position = dropped.map Lexeme.start ∧
      let log := logOf .trace (run table options (Cursor.ofFeed feed) sink).events
      let further :=
        if report.errors.getLast?.map ParseError.position = some finish.start then [finish] else []
      let strays := segments.flatMap fun piece => piece.2.strays piece.1
      let definitions := report.items.filterMap fun
        | .definition d => some d
        | .expression _ => none
      LogRecord.Show (fun lexeme shown => ⟨.trace, .scanner, lexeme.start.inWords ++ ": " ++ shown⟩)
        (lexemes ++ finish :: further) (log.filter (·.level = .trace)) ∧
      LogRecord.Show (fun lexeme shown => ⟨.warning, .session,
          lexeme.start.inWords ++ ": skipping " ++ shown ++ " at top level"⟩)
        strays (log.filter (·.level = .warning)) ∧
      strays.length = report.warnings ∧
      log.filter (·.beginsWith "parsed definition of ") =
        definitions.map (fun d =>
          ⟨.debug, .parser, "parsed definition of " ++ d.prototype.name⟩) ∧
      Attests definitions (log.filter (·.origin = .parser)) ∧
      LogRecord.Show (fun _ shown => ⟨.debug, .session, "recovering: dropping " ++ shown⟩)
        dropped (log.filter (·.beginsWith "recovering: dropping ")) ∧
      log.getLast? = some ⟨.debug, .session,
        "input finished: " ++ (toString report.items.length ++ " item(s), " ++
          toString report.errors.length ++ " error(s), " ++ toString report.warnings ++
          " warning(s)")⟩ := by
  obtain ⟨lexemes, finish, shape, isInner, atEnd, start⟩ := Cursor.advance_ofFeed feed
  have ordered := Scanner.pairwise_lexemes feed
  rw [shape] at ordered
  have segmented := Turn.segmented_course table options.expressions isInner atEnd
  have places := segmented.map_position_errors
  have sublist := segmented.blamed_sublist
  obtain ⟨readings, joined, each, course⟩ := segmented.exists_readings
  obtain ⟨sameJoined, covered⟩ := Turn.segments_of_readings each
  have turns : (readings.map (Prod.map id TurnRead.turn)).map Prod.snd =
      Turn.all table options.expressions (Cursor.ofFeed feed).advance := by
    rw [start, ← Turn.map_turn_course, ← course, List.map_map, List.map_map]
    rfl
  have strays := Turn.strays_of_readings fun front segment found back split =>
    (each front segment found back split).2.2
  rw [course, ← start] at strays
  have told := eq_of_run_eq_ok succeeded
  have events := events_of_run_eq_ok succeeded
  refine ⟨lexemes, finish, readings.map (Prod.map id TurnRead.turn), _, shape, isInner, atEnd,
    ordered, sameJoined.trans joined, covered, ?_, sublist, ?_, ?_, ?_, ?_, ?_, ?_, ?_, ?_⟩
  · rw [told, turns]
  · rw [told, ← places, Turn.map_turn_course, start]
  · rw [told, events, filter_trace_script table options shape isInner atEnd]
    exact LogRecord.show_map _ _
  · rw [events, ← strays, filter_warning_script]
    exact LogRecord.show_map _ _
  · rw [told, ← strays, ← Turn.map_turn_course]
    exact (SessionReport.warnings_ofTurns _).symm
  · rw [told, events]
    exact filter_parsed_definition_script table options _
  · rw [told, events]
    exact attests_script table options _
  · rw [events, ← start, filter_recovering_script]
    exact LogRecord.show_map _ _
  · rw [told, events, ← summary_eq]
    exact getLast?_logOf_script table options _

/-- The body of `g` is missing: its prototype has a record, but no definition of it. The end of the
input is dropped, and so it is met twice. -/
theorem log_accounts_for_missing_body :
    let outcome := run .standard ⟨none, false, false⟩
      (Cursor.ofFeed ("def f(x) x z def g(y)".toList.map some)) .unlimited
    let report : SessionReport :=
      ⟨[.definition ⟨⟨"f", ["x"]⟩, .var "x"⟩], [⟨⟨1, 22⟩, .expectedExpression .endOfInput⟩], 1⟩
    let log := logOf .trace outcome.events
    outcome.result = .ok report ∧
      log.map LogRecord.text =
        ["line 1, column 1: 'def'", "line 1, column 5: identifier 'f'", "line 1, column 6: '('",
          "line 1, column 7: identifier 'x'", "line 1, column 8: ')'",
          "line 1, column 10: identifier 'x'", "parsed prototype f(x)",
          "line 1, column 12: identifier 'z'", "parsed definition of f",
          "line 1, column 12: skipping identifier 'z' at top level",
          "line 1, column 14: 'def'", "line 1, column 18: identifier 'g'", "line 1, column 19: '('",
          "line 1, column 20: identifier 'y'", "line 1, column 21: ')'",
          "line 1, column 22: end of input", "parsed prototype g(y)",
          "recovering: dropping end of input", "line 1, column 22: end of input",
          "input finished: 1 item(s), 1 error(s), 1 warning(s)"] ∧
      log.filter (·.beginsWith "parsed definition of ") =
        [⟨.debug, .parser, "parsed definition of f"⟩] ∧
      Attests [⟨⟨"f", ["x"]⟩, .var "x"⟩] (log.filter (·.origin = .parser)) ∧
      log.getLast? = some ⟨.debug, .session,
        "input finished: 1 item(s), 1 error(s), 1 warning(s)"⟩ := by
  intro outcome report log
  have succeeded : outcome.result = .ok report := by decide +kernel
  obtain ⟨_, _, _, _, _, _, _, _, _, _, _, _, _, _, _, _, defined, attested, _, last⟩ :=
    log_accounts_for_run .standard ⟨none, false, false⟩
      ("def f(x) x z def g(y)".toList.map some) .unlimited succeeded
  exact ⟨succeeded, by decide +kernel, defined, attested, last.trans (by decide +kernel)⟩

end Session

end FormulaReader
