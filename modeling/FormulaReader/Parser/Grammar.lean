import FormulaReader.Chain
import FormulaReader.Parser.Basic

/-!
The grammar of formulas and definitions.

    expression ::= primary (connective primary)*
    primary    ::= quantifier identifier ',' expression
                 | identifier ('(' (expression (',' expression)*)? ')')?
                 | '(' expression ')'
    prototype  ::= identifier '(' (identifier (',' identifier)*)? ')'
    definition ::= 'def' prototype expression

Each rule starts at the token under the cursor and ends at the first token it did not use, which
after a failure is the token at fault. The rules of a primary come over a parser `inner` for the
expressions inside of it, so that nesting is counted in one place.
-/

namespace FormulaReader.Parser

/-- How many primaries may be nested inside one another. -/
def nestingLimit : Nat := 256

/-- Whether a token is the comma that leads to a further item. -/
def comma (t : Token) : Option Unit :=
  if t = .symbol ',' then some () else none

/-- The name under the cursor, read over, or nothing if there is no name. -/
def name? : Parser (Option String) := do
  match ← token with
  | .identifier name =>
      advance
      return some name
  | _ => return none

/-- The name under the cursor, read over. -/
def name (missing : Fault) : Parser String := do
  match ← name? with
  | some name => return name
  | none => fail missing

/-! ## Primaries -/

/-- A parenthesised expression. The opening parenthesis is read over unseen. -/
def group (inner : Parser Expression) : Parser Expression := do
  advance
  let expression ← inner
  expect (.symbol ')') .unclosedGroup
  return expression

/-- The arguments of a call, after its opening parenthesis and through its closing one. -/
def arguments (inner : Parser Expression) : Parser (List Expression) := do
  if (← token) = .symbol ')' then
    advance
    return []
  else
    let first ← inner
    let further ← many comma fun _ => inner
    expect (.symbol ')') .unclosedArguments
    return first :: further

/-- A variable, or a call where an opening parenthesis follows the name. -/
def application (inner : Parser Expression) : Parser Expression := do
  match ← token with
  | .identifier name =>
      advance
      if (← token) = .symbol '(' then
        advance
        return .call name (← arguments inner)
      else
        return .var name
  | found => fail (.expectedExpression found)

/-- A quantifier, the variable it binds, a comma, and a body as long as possible. -/
def quantification (inner : Parser Expression) : Parser Expression := do
  match ← token with
  | .quantifier quantifier =>
      advance
      let variableName ← name .expectedBoundVariable
      expect (.symbol ',') .expectedBody
      return .quantified quantifier variableName (← inner)
  | found => fail (.expectedExpression found)

/-- One operand, chosen by the token under the cursor. -/
def operand (inner : Parser Expression) : Parser Expression := do
  match ← token with
  | .quantifier _ => quantification inner
  | .identifier _ => application inner
  | .symbol '(' => group inner
  | found => fail (.expectedExpression found)

/-! ## Expressions -/

/-- The connective that a token stands for, if its precedence is at least `least`. -/
def connectiveFrom (table : Precedence) (least : Int32) : Token → Option Connective
  | .connective kind => if table.of kind < least then none else some kind
  | _ => none

/-- Connectives of precedence at least `least`, each with the operand after it. -/
def links (table : Precedence) (least : Int32) (operand : Parser Expression) :
    Parser (List Link) :=
  many (connectiveFrom table least) fun kind => do
    return ⟨kind, ← operand⟩

/-- Goes on from `left` with connectives of precedence at least `least` and their operands, and
groups the chain by precedence. Equal precedences group to the left. -/
def continuation (table : Precedence) (operand : Parser Expression) (least : Int32)
    (left : Expression) : Parser Expression := do
  return Chain.tree table least left (← links table least operand)

/-- A chain of operands. -/
def chain (table : Precedence) (operand : Parser Expression) : Parser Expression := do
  continuation table operand 0 (← operand)

/-- A primary in which at most `room` primaries, itself included, are nested in one another. -/
def primaryWithin (table : Precedence) : Nat → Parser Expression
  | 0 => fail (.tooDeep nestingLimit)
  | room + 1 => operand (chain table (primaryWithin table room))

def primary (table : Precedence) : Parser Expression :=
  primaryWithin table nestingLimit

def expression (table : Precedence) : Parser Expression :=
  chain table (primary table)

/-! ## Definitions -/

/-- Parameter names, separated by commas. -/
def parameters : Parser (List String) := do
  match ← name? with
  | none => return []
  | some first =>
      let further ← many comma fun _ => name .expectedParameter
      return first :: further

def prototype : Parser Prototype := do
  let functionName ← name .expectedFunctionName
  expect (.symbol '(') .expectedParameters
  let parameterNames ← parameters
  expect (.symbol ')') .unclosedParameters
  let read : Prototype := ⟨functionName, parameterNames⟩
  note (.readPrototype read)
  return read

/-- A definition. The token before the prototype is read over unseen. -/
def definition (table : Precedence) : Parser Definition := do
  advance
  let head ← prototype
  let body ← expression table
  note (.readDefinition head.name)
  return ⟨head, body⟩

/-! ## Whole texts -/

/-- Parses with `p` from the first token on, and fails unless that uses up the input. -/
def whole {α : Type} (p : Parser α) : Parser α := do
  let value ← p.afterNext
  match ← token with
  | .endOfInput => return value
  | found => fail (.unexpectedRest found)

end FormulaReader.Parser

namespace FormulaReader

/-- Parses `source` as one expression. -/
def parseExpression (source : String) (table : Precedence) :
    Outcome ParseError Cursor Expression :=
  (Parser.whole (Parser.expression table)).run (Cursor.ofFeed (source.toList.map some))

/-- Parses `source` as one definition. -/
def parseDefinition (source : String) (table : Precedence) :
    Outcome ParseError Cursor Definition :=
  (Parser.whole (Parser.definition table)).run (Cursor.ofFeed (source.toList.map some))

end FormulaReader
