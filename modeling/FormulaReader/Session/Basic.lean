import FormulaReader.Log
import FormulaReader.Session.Sink
import FormulaReader.Session.Turn

/-!
Sessions: an input is read item by item, with a prompt before each turn if one is wanted, and
what each turn found is reported at once. An item that fails does not end the session.
-/

namespace FormulaReader

structure SessionOptions where
  /-- Written before every turn. -/
  prompt : Option String
  /-- Whether the written form of every item is reported. -/
  showTree : Bool
  /-- Whether expressions are items too, or stray tokens. -/
  expressions : Bool
deriving DecidableEq

/-- The prompt of an interactive session. -/
def standardPrompt : String := "ready> "

/-- What a session found, each kind in input order. -/
structure SessionReport where
  items : List Item
  errors : List ParseError
  warnings : Nat
deriving DecidableEq

namespace SessionReport

def ofTurns (turns : List Turn) : SessionReport where
  items := turns.filterMap fun
    | .item item => some item
    | _ => none
  errors := turns.filterMap fun
    | .rejected e => some e
    | _ => none
  warnings := turns.countP fun
    | .stray _ => true
    | _ => false

/-- The definitions among the items. -/
def definitions (r : SessionReport) : List Definition :=
  r.items.filterMap fun
    | .definition d => some d
    | .expression _ => none

/-- The three counts of a report. -/
def summary (r : SessionReport) : String :=
  FormulaReader.summary r.items.length r.errors.length r.warnings

end SessionReport

namespace Session

/-- Writes the prompt, if there is one, and passes it on. -/
def ask (options : SessionOptions) : Reporting Unit := do
  match options.prompt with
  | none => return ()
  | some prompt =>
      Reporting.write prompt
      Reporting.flush

/-- Takes turns from the cursor to the end of the input. -/
def turns (table : Precedence) (options : SessionOptions) (c : Cursor) :
    Reporting (List Turn) := do
  ask options
  if c.token = .endOfInput then
    return []
  else
    let found := Turn.read table options.expressions c
    Activity.record found.events
    Reporting.write (found.turn.report options.showTree)
    Activity.record (found.turn.close.run found.cursor).events
    (found.turn :: ·) <$> turns table options (found.turn.closed found.cursor)
termination_by c.size
decreasing_by exact Turn.size_closed_lt table options.expressions ‹_›

/-- A whole session, from a cursor that has not read the first token yet. -/
def run (table : Precedence) (options : SessionOptions) (c : Cursor) :
    Reporting SessionReport := do
  ask options
  Activity.record [.read c.advance.current]
  let report := SessionReport.ofTurns (← turns table options c.advance)
  Activity.note (.finished report.items.length report.errors.length report.warnings)
  Reporting.flush
  return report

end Session

end FormulaReader
