import FormulaReader.Lexeme

/-!
Events: what reading and reporting leave behind, in the order in which it happens.
-/

namespace FormulaReader

/-- A remark on the course of the work. -/
inductive Note where
  | readPrototype (prototype : Prototype)
  | readDefinition (name : String)
  | skipping (position : Position) (token : Token)
  | dropping (token : Token)
  | finished (items errors warnings : Nat)
  | opening (path : String) (bytes : Nat)
deriving DecidableEq

inductive Event where
  | read (lexeme : Lexeme)
  | noted (note : Note)
  | wrote (byte : UInt8)
  | flushed
deriving DecidableEq

namespace Event

/-- The answers that the event pulled from the source of characters. -/
def pulled : Event → List (Option Char)
  | .read lexeme => lexeme.pulled
  | _ => []

/-- The bytes that the event wrote. -/
def written : Event → List UInt8
  | .wrote byte => [byte]
  | _ => []

end Event

end FormulaReader
