import FormulaReader.Files
import FormulaReader.Log
import FormulaReader.Session.Sink

/-!
Failures: why the work on a file was not done, or was done in vain.
-/

namespace FormulaReader

inductive Failure where
  | unreadable (fault : ReadFault)
  | undelivered (fault : SinkFault)
  | rejected (errors : Nat)
deriving DecidableEq

namespace Failure

/-- The failure in words. -/
def message : Failure → String
  | .unreadable fault =>
      "IO error: " ++ fault.text ++
        match fault.systemCode? with
        | some code => " (os error " ++ Text.decimal code ++ ")"
        | none => ""
  | .undelivered fault => "IO error: " ++ fault.text
  | .rejected errors => counted errors "top-level item" ++ " failed to parse"

/-- A name and its fields, in braces. -/
private def fields (name : String) (values : List (String × String)) : String :=
  name ++ " \x7b " ++ commaSeparated (values.map fun (field, value) => field ++ ": " ++ value) ++
    " \x7d"

/-- The failure field by field, as the command line shows it. -/
def listing : Failure → String
  | .unreadable fault =>
      fields "IoError" [("source",
        match fault.systemCode? with
        | some code =>
            fields "Os" [("code", Text.decimal code), ("kind", fault.kind),
              ("message", "\"" ++ fault.text ++ "\"")]
        | none =>
            fields "Error" [("kind", fault.kind), ("message", "\"" ++ fault.text ++ "\"")])]
  | .undelivered fault =>
      fields "IoError" [("source",
        fields "Custom" [("kind", "Other"), ("error", "\"" ++ fault.text ++ "\"")])]
  | .rejected errors => fields "Rejected" [("errors", Text.decimal errors)]

end Failure

end FormulaReader
