import FormulaReader.Position
import FormulaReader.Text.Quoted
import FormulaReader.Expression.Basic
import FormulaReader.Expression.Printer
import FormulaReader.Token
import FormulaReader.Lexeme
import FormulaReader.Scanner.Basic
import FormulaReader.ParseError
import FormulaReader.Log
import FormulaReader.Activity
import FormulaReader.Cursor
import FormulaReader.Precedence
import FormulaReader.Chain
import FormulaReader.Parser.Basic
import FormulaReader.Parser.Grammar
import FormulaReader.Session.Basic
import FormulaReader.CommandLine.Run
import FormulaReader.Main
import FormulaReader.Proofs.Grouping
import FormulaReader.Proofs.Phrase
import FormulaReader.Proofs.Reading
import FormulaReader.Proofs.Input
import FormulaReader.Proofs.Recognition
import FormulaReader.Proofs.Definitions
import FormulaReader.Proofs.Printing
import FormulaReader.Proofs.Locality
import FormulaReader.Proofs.Segments
import FormulaReader.Proofs.Resynchronisation
import FormulaReader.Proofs.Layout
import FormulaReader.Proofs.Names
import FormulaReader.Proofs.Room
import FormulaReader.Proofs.Rereading
import FormulaReader.Proofs.Sentences
import FormulaReader.Proofs.Expectation
import FormulaReader.Proofs.Blame
import FormulaReader.Proofs.Bytes
import FormulaReader.Proofs.Rules
import FormulaReader.Proofs.Counting
import FormulaReader.Proofs.Nesting
import FormulaReader.Proofs.Calls
import FormulaReader.Proofs.Books
import FormulaReader.Proofs.Pulling
import FormulaReader.Proofs.Limits
import FormulaReader.Proofs.Wording
import FormulaReader.Proofs.Transcript
import FormulaReader.Proofs.Spacing
import FormulaReader.Proofs.Programs
import FormulaReader.Proofs.Deeds
import FormulaReader.Proofs.Climbing
import FormulaReader.Proofs.Ranking
import FormulaReader.Proofs.Succession
import FormulaReader.Proofs.Progress
import FormulaReader.Proofs.Pace
import FormulaReader.Proofs.Readability
import FormulaReader.Proofs.Parentheses
import FormulaReader.Proofs.Options
import FormulaReader.Proofs.Vocabulary
import FormulaReader.Proofs.Foresight
import FormulaReader.Proofs.Notes
import FormulaReader.Proofs.Records
import FormulaReader.Proofs.Exits
