import FormulaReader.Proofs.Calls
import FormulaReader.Proofs.Turns

/-!
Notes: what is remarked on in the course of a session. An expression is read without any remark; a
prototype is remarked on once it is complete, and so is a definition. At top level each stray token
is remarked on, and each token that is dropped because an item failed there.
-/

namespace FormulaReader

namespace Event

/-- The notes among the events. -/
def notes (events : List Event) : List Note :=
  events.filterMap note?

@[simp] theorem notes_read (lexeme : Lexeme) : notes [.read lexeme] = [] := rfl

@[simp] theorem notes_append (earlier later : List Event) :
    notes (earlier ++ later) = notes earlier ++ notes later :=
  List.filterMap_append

theorem notes_wrote (bytes : List UInt8) : notes (bytes.map .wrote) = [] := by
  induction bytes with
  | nil => rfl
  | cons byte rest ih => exact ih

end Event

namespace Parser

variable {α β : Type} {p : Parser α} {c : Cursor}

/-! ## Parsers in a row -/

theorem run_bind_of_error {e : ParseError} (next : α → Parser β)
    (failed : (p.run c).result = .error e) :
    ((p >>= next).run c).result = .error e ∧ ((p >>= next).run c).events = (p.run c).events := by
  rw [run_bind, Activity.bind_apply]
  cases shape : p.run c with
  | mk result state events =>
      rw [shape] at failed
      cases failed
      exact ⟨rfl, rfl⟩

theorem run_bind_of_ok {a : α} (next : α → Parser β) (succeeded : (p.run c).result = .ok a) :
    (p >>= next).run c = ((next a).run (p.run c).state).after (p.run c).events := by
  rw [run_bind, Activity.bind_apply]
  cases shape : p.run c with
  | mk result state events =>
      rw [shape] at succeeded
      cases succeeded
      rfl

/-! ## Parsers that remark on nothing -/

/-- The parser leaves no note, whether it succeeds or not. -/
def Quiet (p : Parser α) : Prop :=
  ∀ c, Event.notes (p.run c).events = []

theorem quiet_pure (a : α) : Quiet (pure a) := fun _ => rfl

theorem quiet_token : Quiet token := fun _ => rfl

theorem quiet_advance : Quiet advance := fun _ => rfl

theorem quiet_fail (fault : Fault) : Quiet (fail fault : Parser α) := fun _ => rfl

theorem Quiet.bind {next : α → Parser β} (first : Quiet p) (second : ∀ a, Quiet (next a)) :
    Quiet (p >>= next) := by
  intro c
  cases result : (p.run c).result with
  | error e =>
      rw [(run_bind_of_error next result).2]
      exact first c
  | ok a =>
      rw [run_bind_of_ok next result, Outcome.events_after, Event.notes_append, first c,
        second a (p.run c).state]
      rfl

theorem quiet_token_bind {next : Token → Parser α} (each : ∀ t, Quiet (next t)) :
    Quiet (token >>= next) :=
  quiet_token.bind each

theorem quiet_advance_bind {next : Unit → Parser α} (rest : ∀ u, Quiet (next u)) :
    Quiet (advance >>= next) :=
  quiet_advance.bind rest

theorem quiet_many {lead : Token → Option β} {item : β → Parser α}
    (items : ∀ b, Quiet (item b)) :
    Quiet (many lead item) := by
  intro c
  have afterLead : ∀ b, Quiet (item b).afterNext := fun b => quiet_advance_bind fun _ => items b
  show Event.notes (manyFrom lead item c).events = []
  fun_induction manyFrom lead item c with
  | case1 => rfl
  | case2 => rfl
  | case3 c b _ _ first e failed => exact afterLead b c
  | case4 c b _ _ first a read ih =>
      rw [Outcome.events_after, Event.notes_append, afterLead b c]
      exact ih

theorem quiet_expect (expected : Token) (fault : Fault) : Quiet (expect expected fault) := by
  apply quiet_token_bind
  intro t
  split
  · exact quiet_advance
  · exact quiet_fail fault

theorem quiet_name? : Quiet name? := by
  apply quiet_token_bind
  intro t
  cases t with
  | identifier x => exact quiet_advance_bind fun _ => quiet_pure (some x)
  | _ => exact quiet_pure none

theorem quiet_name (missing : Fault) : Quiet (name missing) := by
  apply quiet_name?.bind
  intro found
  cases found with
  | some x => exact quiet_pure x
  | none => exact quiet_fail missing

section Rules

variable {inner : Parser Expression}

theorem quiet_group (inside : Quiet inner) : Quiet (group inner) :=
  quiet_advance_bind fun _ => inside.bind fun e =>
    (quiet_expect _ _).bind fun _ => quiet_pure e

theorem quiet_arguments (inside : Quiet inner) : Quiet (arguments inner) := by
  apply quiet_token_bind
  intro t
  split
  · exact quiet_advance_bind fun _ => quiet_pure []
  · apply inside.bind
    intro first
    apply (quiet_many fun _ => inside).bind
    intro further
    exact (quiet_expect _ _).bind fun _ => quiet_pure (first :: further)

theorem quiet_application (inside : Quiet inner) : Quiet (application inner) := by
  apply quiet_token_bind
  intro t
  cases t with
  | identifier x =>
      apply quiet_advance_bind
      intro _
      apply quiet_token_bind
      intro u
      split
      · exact quiet_advance_bind fun _ =>
          (quiet_arguments inside).bind fun es => quiet_pure (Expression.call x es)
      · exact quiet_pure (Expression.var x)
  | _ => exact quiet_fail _

theorem quiet_quantification (inside : Quiet inner) : Quiet (quantification inner) := by
  apply quiet_token_bind
  intro t
  cases t with
  | quantifier kind =>
      apply quiet_advance_bind
      intro _
      apply (quiet_name _).bind
      intro x
      apply (quiet_expect _ _).bind
      intro _
      exact inside.bind fun body => quiet_pure (Expression.quantified kind x body)
  | _ => exact quiet_fail _

theorem quiet_operand (inside : Quiet inner) : Quiet (operand inner) := by
  apply quiet_token_bind
  intro t
  split
  · exact quiet_quantification inside
  · exact quiet_application inside
  · exact quiet_group inside
  · exact quiet_fail _

theorem quiet_chain {table : Precedence} (operands : Quiet inner) : Quiet (chain table inner) := by
  apply operands.bind
  intro left
  have links : Quiet (links table 0 inner) :=
    quiet_many fun kind => operands.bind fun e => quiet_pure (Link.mk kind e)
  exact links.bind fun values => quiet_pure (Chain.tree table 0 left values)

end Rules

theorem quiet_primaryWithin (table : Precedence) (room : Nat) :
    Quiet (primaryWithin table room) := by
  induction room with
  | zero => exact quiet_fail _
  | succ room ih => exact quiet_operand (quiet_chain ih)

theorem quiet_expression (table : Precedence) : Quiet (expression table) :=
  quiet_chain (quiet_primaryWithin table nestingLimit)

theorem quiet_parameters : Quiet parameters := by
  apply quiet_name?.bind
  intro found
  cases found with
  | none => exact quiet_pure []
  | some first =>
      have further : Quiet (many comma fun _ => name .expectedParameter) :=
        quiet_many fun _ => quiet_name _
      exact further.bind fun later => quiet_pure (first :: later)

/-! ## Definitions -/

/-- A prototype, without the remark on it. -/
def signature : Parser Prototype := do
  let functionName ← name .expectedFunctionName
  expect (.symbol '(') .expectedParameters
  let parameterNames ← parameters
  expect (.symbol ')') .unclosedParameters
  return ⟨functionName, parameterNames⟩

theorem quiet_signature : Quiet signature := by
  apply (quiet_name _).bind
  intro x
  apply (quiet_expect _ _).bind
  intro _
  apply quiet_parameters.bind
  intro parameterNames
  exact (quiet_expect _ _).bind fun _ => quiet_pure (Prototype.mk x parameterNames)

/-- The remark on a prototype comes last. -/
theorem prototype_eq :
    prototype = signature >>= fun read => note (.readPrototype read) >>= fun _ => pure read := by
  simp only [prototype, signature, bind_assoc, pure_bind]

/-- A prototype is remarked on when it has been read, and not before. -/
theorem notes_prototype (c : Cursor) :
    Event.notes (prototype.run c).events =
      ((prototype.run c).result.toOption.map Note.readPrototype).toList := by
  rw [prototype_eq]
  cases result : (signature.run c).result with
  | error e =>
      obtain ⟨failed, events⟩ := run_bind_of_error (fun read =>
        note (.readPrototype read) >>= fun _ => pure read) result
      rw [events, failed, quiet_signature c]
      rfl
  | ok read =>
      rw [run_bind_of_ok _ result, Outcome.events_after, Event.notes_append, quiet_signature c]
      rfl

/-- What comes after the prototype of a definition. -/
def defining (table : Precedence) (head : Prototype) : Parser Definition := do
  let body ← expression table
  note (.readDefinition head.name)
  return ⟨head, body⟩

/-- A definition is remarked on when its body has been read, and not before. -/
theorem notes_defining (table : Precedence) (head : Prototype) (c : Cursor) :
    (∃ body, ((defining table head).run c).result = .ok ⟨head, body⟩ ∧
      Event.notes ((defining table head).run c).events = [.readDefinition head.name]) ∨
    ∃ e, ((defining table head).run c).result = .error e ∧
      Event.notes ((defining table head).run c).events = [] := by
  have quiet := quiet_expression table c
  rw [defining]
  cases result : ((expression table).run c).result with
  | error e =>
      obtain ⟨failed, events⟩ := run_bind_of_error (fun body =>
        note (.readDefinition head.name) >>= fun _ => pure (Definition.mk head body)) result
      rw [events, quiet]
      exact .inr ⟨e, failed, rfl⟩
  | ok body =>
      rw [run_bind_of_ok _ result, Outcome.result_after, Outcome.events_after, Event.notes_append,
        quiet]
      exact .inl ⟨body, rfl, rfl⟩

/-- A definition is remarked on when it has been read, and its prototype before that. If the body
fails, the remark on the prototype has been made. -/
theorem notes_definition (table : Precedence) (c : Cursor) :
    (∃ d, ((definition table).run c).result = .ok d ∧
      Event.notes ((definition table).run c).events =
        [.readPrototype d.prototype, .readDefinition d.prototype.name]) ∨
    ∃ e, ((definition table).run c).result = .error e ∧
      (Event.notes ((definition table).run c).events = [] ∨
        ∃ p, Event.notes ((definition table).run c).events = [.readPrototype p]) := by
  have moved : (definition table).run c =
      ((prototype >>= defining table).run c.advance).after [.read c.advance.current] := rfl
  have noted := notes_prototype c.advance
  rw [moved, Outcome.result_after, Outcome.events_after, Event.notes_append, Event.notes_read,
    List.nil_append]
  cases result : (prototype.run c.advance).result with
  | error e =>
      obtain ⟨failed, events⟩ := run_bind_of_error (defining table) result
      rw [result] at noted
      exact .inr ⟨e, failed, .inl (events ▸ noted)⟩
  | ok p =>
      rw [result] at noted
      rw [run_bind_of_ok _ result, Outcome.result_after, Outcome.events_after, Event.notes_append,
        noted]
      rcases notes_defining table p (prototype.run c.advance).state with
        ⟨body, read, further⟩ | ⟨e, failed, further⟩
      · rw [further]
        exact .inl ⟨⟨p, body⟩, read, rfl⟩
      · rw [further]
        exact .inr ⟨e, failed, .inr ⟨p, rfl⟩⟩

end Parser

/-! ## Turns -/

/-- What is noted in a turn, to read it and to close it. -/
def TurnRead.notes (found : TurnRead) : List Note :=
  Event.notes (found.events ++ (found.turn.close.run found.cursor).events)

theorem TurnRead.notes_script (found : TurnRead) (showTree : Bool) :
    Event.notes (found.script showTree) = found.notes := by
  rw [script, notes, Event.notes_append, Event.notes_append, Event.notes_wrote, List.nil_append,
    Event.notes_append]

namespace Turn

/-- What is noted in a turn that has come to the lexeme `stop`. -/
inductive Notes (stop : Lexeme) : Turn → List Note → Prop
  | separator : Notes stop .separator []
  | expression (e : Expression) : Notes stop (.item (.expression e)) []
  | definition (d : Definition) :
      Notes stop (.item (.definition d))
        [.readPrototype d.prototype, .readDefinition d.prototype.name]
  | rejected (e : ParseError) : Notes stop (.rejected e) [.dropping stop.token]
  | rejectedBody (e : ParseError) (p : Prototype) :
      Notes stop (.rejected e) [.readPrototype p, .dropping stop.token]
  | stray : Notes stop (.stray stop.token) [.skipping stop.start stop.token]

theorem notes_attempt_expression (table : Precedence) (c : Cursor) :
    let found := attempt (Parser.expression table) .expression c
    Notes found.cursor.current found.turn found.notes := by
  have quiet := Parser.quiet_expression table c
  simp only [attempt, TurnRead.notes, Event.notes_append]
  cases ((Parser.expression table).run c).result with
  | ok e =>
      rw [quiet]
      exact .expression e
  | error e =>
      rw [quiet]
      exact .rejected e

theorem notes_attempt_definition (table : Precedence) (c : Cursor) :
    let found := attempt (Parser.definition table) .definition c
    Notes found.cursor.current found.turn found.notes := by
  simp only [attempt, TurnRead.notes, Event.notes_append]
  rcases Parser.notes_definition table c with ⟨d, read, noted⟩ | ⟨e, failed, noted | ⟨p, noted⟩⟩
  · rw [read, noted]
    exact .definition d
  · rw [failed, noted]
    exact .rejected e
  · rw [failed, noted]
    exact .rejectedBody e p

theorem notes_read (table : Precedence) (expressions : Bool) (c : Cursor) :
    let found := read table expressions c
    Notes found.cursor.current found.turn found.notes := by
  rw [read]
  split
  · exact .separator
  · exact notes_attempt_definition table c
  · split
    · exact notes_attempt_expression table c
    · exact .stray

theorem notes_of_mem_course {table : Precedence} {expressions : Bool} {c : Cursor}
    {found : TurnRead} (member : found ∈ course table expressions c) :
    Notes found.cursor.current found.turn found.notes := by
  fun_induction course table expressions c with
  | case1 c atEnd => cases member
  | case2 c notEnd first ih =>
      rcases List.mem_cons.mp member with rfl | later
      · exact notes_read table expressions c
      · exact ih later

end Turn

/-! ## Sessions -/

theorem SessionOptions.notes_asking (options : SessionOptions) :
    Event.notes options.asking = [] := by
  rw [asking]
  cases options.prompt with
  | none => rfl
  | some prompt =>
      rw [Event.notes_append, Event.notes_wrote]
      rfl

/-- What is noted in a session are the notes of its turns, and at the end the counts. -/
theorem Session.notes_script (table : Precedence) (options : SessionOptions) (c : Cursor) :
    let report := SessionReport.ofTurns (Turn.all table options.expressions c.advance)
    Event.notes (script table options c) =
      (Turn.course table options.expressions c.advance).flatMap TurnRead.notes ++
        [.finished report.items.length report.errors.length report.warnings] := by
  have turns : ∀ course : List TurnRead,
      Event.notes (course.flatMap fun found => options.asking ++ found.script options.showTree) =
        course.flatMap TurnRead.notes := by
    intro course
    induction course with
    | nil => rfl
    | cons found later ih =>
        rw [List.flatMap_cons, List.flatMap_cons, Event.notes_append, Event.notes_append,
          options.notes_asking, found.notes_script, ih]
        rfl
  have reading : ∀ events, Event.notes (.read c.advance.current :: events) = Event.notes events :=
    fun _ => rfl
  rw [script, Event.notes_append, options.notes_asking, List.nil_append, reading, turnsScript,
    Event.notes_append, Event.notes_append, turns, options.notes_asking, List.append_nil]
  rfl

end FormulaReader
