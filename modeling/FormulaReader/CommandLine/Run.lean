import FormulaReader.CommandLine.Arguments
import FormulaReader.Session.File

/-!
The command line program: what it writes and how it ends, given its arguments, the files it can
read, and its standard input.
-/

namespace FormulaReader.CommandLine

/-- How the program ends. -/
structure Exit where
  code : Nat
  /-- What was written to standard output. -/
  output : List UInt8
  /-- What was written to standard error, the records of the log left out. -/
  messages : List UInt8
deriving DecidableEq

def programName : String := "follang"

def versionText : String :=
  programName ++ " 0.1.0\n"

def usageText : String :=
  "Usage: " ++ programName ++ " [OPTIONS] [repl | parse <INPUT>]\n"

def helpText : String :=
  "Parser for a small first-order logic language\n\n" ++ usageText ++ "\n" ++
    "  --and-prec <N>       precedence of /\\, 40 unless given\n" ++
    "  --or-prec <N>        precedence of \\/, 20 unless given\n" ++
    "  --expressions        parse top-level expressions instead of skipping them\n" ++
    "  --log-level <LEVEL>  error, warn, info, debug or trace\n" ++
    "  --show-ast           print every parsed tree\n" ++
    "  --tokens             print the token stream first (parse only)\n" ++
    "  -h, --help           print this text\n" ++
    "  -V, --version        print the version\n"

/-- The tokens of a text, one a line, between two headings. -/
def tokenListing (text : String) : String :=
  let tokens := (Scanner.start (text.toList.map some)).lexemes.map Lexeme.token
  "=== TOKENS ===\n" ++ String.join (tokens.map fun token => token.listing ++ "\n") ++
    "=== AST ===\n"

/-- The options of an interactive session. -/
def interactiveOptions (invocation : Invocation) (showTree : Bool) : SessionOptions :=
  ⟨some standardPrompt, showTree, invocation.expressions⟩

/-- The events of an interactive session over bytes, each of which is one character. -/
def interactive (invocation : Invocation) (showTree : Bool) (input : List UInt8) : List Event :=
  (Session.run invocation.table (interactiveOptions invocation showTree)
    (Cursor.ofFeed (input.map fun byte => some (Text.latin1 byte))) .unlimited).events

/-- The bytes that `events` wrote, in order. -/
def written (events : List Event) : List UInt8 :=
  events.flatMap Event.written

/-- The first of `events`, up to the first one for which the source had to say that the input is
over. No further input changes them. -/
def settled (events : List Event) : List Event :=
  events.takeWhile fun event => none ∉ event.pulled

/-- Ends with a failure, after `output`. -/
def failed (failure : Failure) (output : List UInt8) : Exit :=
  ⟨1, output, Text.utf8 ("Error: " ++ failure.listing ++ "\n")⟩

/-- Parses a file and sums up what was found. If the tokens are wanted, the file is read for them
before it is read for the session. -/
def parseFile (invocation : Invocation) (input : String) (tokens showTree : Bool)
    (file : Except ReadFault (List UInt8)) : Exit :=
  match (if tokens then tokenListing <$> textOfFile file else .ok "") with
  | .error fault => failed (.unreadable fault) []
  | .ok listing =>
      let session :=
        Session.runFile invocation.table ⟨none, showTree, invocation.expressions⟩ input file
          .unlimited
      let output := Text.utf8 listing ++ written session.events
      match session.result with
      | .error failure => failed failure output
      | .ok report =>
          let output := output ++ Text.utf8 (input ++ ": " ++ report.summary ++ "\n")
          if report.errors = [] then ⟨0, output, []⟩
          else failed (.rejected report.errors.length) output

/-- The whole program. -/
def run (arguments : List String) (readFile : String → Except ReadFault (List UInt8))
    (standardInput : List UInt8) : Exit :=
  match request arguments with
  | .wrong => ⟨2, [], Text.utf8 usageText⟩
  | .version => ⟨0, Text.utf8 versionText, []⟩
  | .help => ⟨0, Text.utf8 helpText, []⟩
  | .invoke invocation =>
      match invocation.command with
      | .repl showTree => ⟨0, [], written (interactive invocation showTree standardInput)⟩
      | .parse input tokens showTree =>
          parseFile invocation input tokens showTree (readFile input)

end FormulaReader.CommandLine
