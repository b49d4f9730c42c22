import FormulaReader.Position
import FormulaReader.Token

/-!
Violations of the grammar, each with the position of the token at which it was noticed.
-/

namespace FormulaReader

/-- What is wrong at a token, in terms of what the grammar expects there. -/
inductive Fault where
  /-- No expression begins here. -/
  | expectedExpression (found : Token)
  /-- A parenthesised expression goes on where it should be closed. -/
  | unclosedGroup
  /-- After an argument comes neither a further one nor the closing parenthesis. -/
  | unclosedArguments
  | expectedBoundVariable
  /-- No comma leads from the bound variable to the body. -/
  | expectedBody
  | expectedFunctionName
  /-- No parenthesis opens the parameters. -/
  | expectedParameters
  | unclosedParameters
  /-- A comma is not followed by a further parameter. -/
  | expectedParameter
  | tooDeep (limit : Nat)
  /-- A whole text goes on after what it was to be. -/
  | unexpectedRest (found : Token)
deriving DecidableEq

/-- What the fault says, without its position. -/
def Fault.text : Fault → String
  | .expectedExpression found => "unknown token when expecting an expression, found " ++ found.text
  | .unclosedGroup => "expected ')'"
  | .unclosedArguments => "expected ')' or ',' in argument list"
  | .expectedBoundVariable => "expected identifier after quantifier"
  | .expectedBody => "expected ',' after quantified variable"
  | .expectedFunctionName => "expected function name in prototype"
  | .expectedParameters => "expected '(' in prototype"
  | .unclosedParameters => "expected ')' in prototype"
  | .expectedParameter => "expected parameter name after ','"
  | .tooDeep limit => "expressions nested deeper than " ++ Text.decimal limit ++ " levels"
  | .unexpectedRest found => "unexpected trailing input, found " ++ found.text

structure ParseError where
  position : Position
  fault : Fault
deriving DecidableEq

def ParseError.message (e : ParseError) : String :=
  e.position.text ++ ": " ++ e.fault.text

end FormulaReader
