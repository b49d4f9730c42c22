import FormulaReader.CommandLine.Run

/-!
The program on a real terminal: arguments, standard streams and files.
-/

namespace FormulaReader.CommandLine

/-- The bytes of a file on disk. -/
def readFromDisk (path : String) : IO (Except ReadFault (List UInt8)) := do
  try
    return .ok (← IO.FS.readBinFile path).toList
  catch
    | .inappropriateType _ 21 _ => return .error .isFolder
    | .inappropriateType .. => return .error .notFolder
    | .invalidArgument _ 22 _ => return .error .nulInPath
    | .invalidArgument .. => return .error .nameTooLong
    | _ => return .error .notFound

/-- Goes on with an interactive session after `input` was read and its first `shown` bytes of
reports were written. Each time the source has nothing more at hand, all that further input cannot
change is written. -/
partial def converse (session : List UInt8 → List Event) (input : List UInt8) (shown : Nat) :
    IO Unit := do
  let messages ← IO.getStderr
  let certain := written (settled (session input))
  messages.write (certain.drop shown).toByteArray
  messages.flush
  let more ← (← IO.getStdin).read 4096
  if more.isEmpty then
    messages.write ((written (session input)).drop certain.length).toByteArray
    messages.flush
  else
    converse session (input ++ more.toList) certain.length

/-- Writes what the program has to say, and ends as it ends. -/
def Exit.deliver (exit : Exit) : IO UInt32 := do
  let output ← IO.getStdout
  output.write exit.output.toByteArray
  output.flush
  let messages ← IO.getStderr
  messages.write exit.messages.toByteArray
  messages.flush
  return UInt32.ofNat exit.code

/-- Does what the arguments ask for. -/
def perform (arguments : List String) : IO UInt32 := do
  match request arguments with
  | .invoke invocation =>
      match invocation.command with
      | .repl showTree =>
          converse (interactive invocation showTree) [] 0
          return 0
      | .parse input tokens showTree =>
          (parseFile invocation input tokens showTree (← readFromDisk input)).deliver
  | _ => (run arguments (fun _ => .error .notFound) []).deliver

end FormulaReader.CommandLine

def main (arguments : List String) : IO UInt32 :=
  FormulaReader.CommandLine.perform arguments
