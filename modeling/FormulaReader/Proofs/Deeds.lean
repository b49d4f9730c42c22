import FormulaReader.Event

/-!
Deeds: events as they show outside. An answer is pulled from the source of characters, a byte is
written, or what was written is passed on. Of a lexeme only the answers show that were pulled for
it, and of a note nothing does.
-/

namespace FormulaReader

inductive Deed where
  | pulled (answer : Option Char)
  | wrote (byte : UInt8)
  | flushed
deriving DecidableEq

/-- The bytes that the deed wrote. -/
def Deed.written : Deed → List UInt8
  | .wrote byte => [byte]
  | _ => []

/-- What shows of an event, in order. -/
def Event.deeds : Event → List Deed
  | .read lexeme => lexeme.pulled.map .pulled
  | .noted _ => []
  | .wrote byte => [.wrote byte]
  | .flushed => [.flushed]

/-- Pulling writes nothing. -/
theorem Deed.flatMap_written_pulled (answers : List (Option Char)) :
    (answers.map Deed.pulled).flatMap Deed.written = [] := by
  induction answers with
  | nil => rfl
  | cons answer later ih => exact ih

/-- Pulling flushes nothing. -/
theorem Deed.count_flushed_pulled (answers : List (Option Char)) :
    (answers.map Deed.pulled).count .flushed = 0 :=
  List.count_eq_zero.mpr (by simp)

end FormulaReader
