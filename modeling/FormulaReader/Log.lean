import FormulaReader.Event

/-!
The log: the record that an event leaves, with its level and the part of the reader it is from.
-/

namespace FormulaReader

inductive Level where
  | error
  | warning
  | info
  | debug
  | trace
deriving DecidableEq

/-- How much a log at this level shows: the higher, the more. -/
def Level.verbosity : Level → Nat
  | .error => 1
  | .warning => 2
  | .info => 3
  | .debug => 4
  | .trace => 5

/-- The parts of the reader that write to the log. -/
inductive Origin where
  | scanner
  | parser
  | session
deriving DecidableEq

structure LogRecord where
  level : Level
  origin : Origin
  text : String
deriving DecidableEq

/-- A number of something, with the singular and the plural in one word. -/
def counted (n : Nat) (what : String) : String :=
  Text.decimal n ++ " " ++ what ++ "(s)"

/-- The three counts that sum up a session. -/
def summary (items errors warnings : Nat) : String :=
  counted items "item" ++ ", " ++ counted errors "error" ++ ", " ++ counted warnings "warning"

def Note.logRecord : Note → LogRecord
  | .readPrototype prototype => ⟨.debug, .parser, "parsed prototype " ++ prototype.text⟩
  | .readDefinition name => ⟨.debug, .parser, "parsed definition of " ++ name⟩
  | .skipping position token =>
      ⟨.warning, .session, position.text ++ ": skipping " ++ token.text ++ " at top level"⟩
  | .dropping token => ⟨.debug, .session, "recovering: dropping " ++ token.text⟩
  | .finished items errors warnings =>
      ⟨.debug, .session, "input finished: " ++ summary items errors warnings⟩
  | .opening path bytes =>
      ⟨.info, .session, "parsing " ++ path ++ " (" ++ Text.decimal bytes ++ " bytes)"⟩

/-- The record of an event. Writing and flushing leave none. -/
def Event.logRecord? : Event → Option LogRecord
  | .read lexeme => some ⟨.trace, .scanner, lexeme.text⟩
  | .noted note => some note.logRecord
  | _ => none

/-- The records of `events` that a log at `level` shows. -/
def logOf (level : Level) (events : List Event) : List LogRecord :=
  (events.filterMap Event.logRecord?).filter fun record =>
    record.level.verbosity ≤ level.verbosity

end FormulaReader
