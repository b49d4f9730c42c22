import FormulaReader.Event
import FormulaReader.Scanner.Basic

/-!
Cursors: a place among the lexemes of an input. A cursor always holds one lexeme, the current one,
and only moves forward.
-/

namespace FormulaReader

structure Cursor where
  current : Lexeme
  ahead : List Lexeme
deriving DecidableEq

namespace Cursor

/-- The cursor in front of `lexemes`, none of which has been read. A blank stands in for the
current lexeme. -/
def before (lexemes : List Lexeme) : Cursor :=
  ⟨⟨.symbol ' ', .first, []⟩, lexemes⟩

/-- The cursor in front of all that a source of characters gives. -/
def ofFeed (feed : Feed) : Cursor :=
  before (Scanner.start feed).lexemes

/-- The token under the cursor. -/
def token (c : Cursor) : Token :=
  c.current.token

/-- The position of the token under the cursor. -/
def position (c : Cursor) : Position :=
  c.current.start

/-- The cursor one lexeme on. Past the last lexeme it keeps meeting the end of the input. -/
def advance (c : Cursor) : Cursor :=
  match c.ahead with
  | [] => ⟨c.current.endAfter, []⟩
  | lexeme :: rest => ⟨lexeme, rest⟩

/-- How many lexemes are still to be used, an end of the input under the cursor left out. -/
def size (c : Cursor) : Nat :=
  c.ahead.length + if c.token = .endOfInput then 0 else 1

theorem length_ahead_le_size (c : Cursor) : c.ahead.length ≤ c.size := by
  simp [size]

theorem size_advance_le (c : Cursor) : c.advance.size ≤ c.ahead.length := by
  cases shape : c.ahead with
  | nil => simp [advance, shape, size, token, Lexeme.endAfter]
  | cons lexeme rest =>
      simp only [advance, shape, size, List.length_cons]
      split <;> omega

theorem length_ahead_lt_size {c : Cursor}
    (notEnd : c.token ≠ .endOfInput) :
    c.ahead.length < c.size := by
  simp [size, notEnd]

/-- Moves of a cursor with the events they leave: reading on, and noting on the way. -/
inductive Path (c : Cursor) : List Event → Cursor → Prop
  | stay : Path c [] c
  | advance {events : List Event} {d : Cursor} :
      Path c events d → Path c (events ++ [.read d.advance.current]) d.advance
  | note {events : List Event} {d : Cursor} (n : Note) :
      Path c events d → Path c (events ++ [.noted n]) d

namespace Path

theorem trans {c d e : Cursor} {earlier later : List Event}
    (first : Path c earlier d)
    (second : Path d later e) :
    Path c (earlier ++ later) e := by
  induction second with
  | stay => simpa using first
  | advance _ ih => simpa using ih.advance
  | note n _ ih => simpa using ih.note n

theorem length_ahead_le {c d : Cursor} {events : List Event}
    (path : Path c events d) :
    d.ahead.length ≤ c.ahead.length := by
  induction path with
  | stay => exact Nat.le_refl _
  | @advance events d _ ih =>
      have shorter : d.advance.ahead.length ≤ d.ahead.length :=
        Nat.le_trans (length_ahead_le_size _) (size_advance_le d)
      exact Nat.le_trans shorter ih
  | note n _ ih => exact ih

theorem size_le {c d : Cursor} {events : List Event}
    (path : Path c events d) :
    d.size ≤ c.size := by
  induction path with
  | stay => exact Nat.le_refl _
  | @advance events d _ ih =>
      exact Nat.le_trans (size_advance_le d) (Nat.le_trans (length_ahead_le_size d) ih)
  | note n _ ih => exact ih

end Path

end Cursor

end FormulaReader
