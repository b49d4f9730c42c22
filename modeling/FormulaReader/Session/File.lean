import FormulaReader.Failure
import FormulaReader.Session.Basic

/-!
Sessions on files: the file is read as a whole before the session starts.
-/

namespace FormulaReader

namespace Activity

variable {ε ζ σ α : Type}

/-- The activity with its failures told in other terms. -/
def mapError (f : ε → ζ) (m : Activity ε σ α) : Activity ζ σ α :=
  fun s =>
    let o := m s
    ⟨o.result.mapError f, o.state, o.events⟩

end Activity

namespace Session

/-- A session on the file that was found at `path`. -/
def runFile (table : Precedence) (options : SessionOptions) (path : String)
    (file : Except ReadFault (List UInt8)) : Activity Failure Sink SessionReport := do
  match textOfFile file with
  | .error fault => fun sink => ⟨.error (.unreadable fault), sink, []⟩
  | .ok text =>
      Activity.note (.opening path (Text.utf8 text).length)
      (run table options (Cursor.ofFeed (text.toList.map some))).mapError .undelivered

end Session

end FormulaReader
