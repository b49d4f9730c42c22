import FormulaReader.Parser.Progress

/-!
Turns: the steps of a session at top level. A turn reads one item, one separator or one stray
token; what it found is reported, and then the turn is closed by reading over whatever is not to
be looked at again.
-/

namespace FormulaReader

inductive Item where
  | definition (d : Definition)
  | expression (e : Expression)
deriving DecidableEq

/-- What a turn found at top level. -/
inductive Turn where
  | separator
  | item (item : Item)
  | rejected (error : ParseError)
  | stray (token : Token)
deriving DecidableEq

/-- A turn, the cursor it left, and the events on the way. -/
structure TurnRead where
  turn : Turn
  cursor : Cursor
  events : List Event

/-- The lines that report an item, its written form among them if `showTree`. -/
def Item.report (showTree : Bool) : Item → String
  | .definition d =>
      "Parsed a function definition.\n" ++ if showTree then d.text ++ "\n" else ""
  | .expression e =>
      "Parsed a top-level expression.\n" ++ if showTree then e.text ++ "\n" else ""

namespace Turn

/-- The lines that report a turn. -/
def report (showTree : Bool) : Turn → String
  | .separator => ""
  | .item parsed => parsed.report showTree
  | .rejected error => "Error: " ++ error.message ++ "\n"
  | .stray token => "Warning: unexpected " ++ token.text ++ " at top level\n"

/-- Reads an item with `p`. -/
def attempt {α : Type} (p : Parser α) (kind : α → Item) (c : Cursor) : TurnRead :=
  let parsed := p.run c
  match parsed.result with
  | .ok value => ⟨.item (kind value), parsed.state, parsed.events⟩
  | .error e => ⟨.rejected e, parsed.state, parsed.events⟩

/-- Reads what stands under the cursor at top level: a separator, a definition, and else an
expression if these are wanted, or a stray token, which is left where it is. -/
def read (table : Precedence) (expressions : Bool) (c : Cursor) : TurnRead :=
  match c.token with
  | .symbol ';' => ⟨.separator, c, []⟩
  | .define => attempt (Parser.definition table) .definition c
  | found =>
      if expressions then attempt (Parser.expression table) .expression c
      else ⟨.stray found, c, [.noted (.skipping c.position found)]⟩

/-- Ends a turn: reads over a separator, a stray token or the token at which an item failed, and
goes on after an item as it is. -/
def close : Turn → Parser Unit
  | .item _ => pure ()
  | .separator => Parser.advance
  | .stray _ => Parser.advance
  | .rejected _ => do
      Parser.note (.dropping (← Parser.token))
      Parser.advance

/-- The cursor after `turn` was closed at `c`. -/
def closed (turn : Turn) (c : Cursor) : Cursor :=
  (turn.close.run c).state

theorem closed_of_not_item {turn : Turn} {c : Cursor}
    (notItem : ∀ parsed, turn ≠ .item parsed) :
    turn.closed c = c.advance := by
  cases turn with
  | item parsed => exact absurd rfl (notItem parsed)
  | _ => rfl

theorem size_attempt_le {α : Type} {p : Parser α}
    (consumes : p.Consumes)
    (kind : α → Item)
    (c : Cursor) :
    ((attempt p kind c).turn.closed (attempt p kind c).cursor).size ≤ c.ahead.length := by
  simp only [attempt]
  split
  · next value succeeded => exact consumes c value succeeded
  · next e _ =>
      rw [closed_of_not_item (by simp)]
      exact Nat.le_trans (Cursor.size_advance_le _) (p.path c).length_ahead_le

/-- Every turn uses up a token. -/
theorem size_closed_lt (table : Precedence) (expressions : Bool) {c : Cursor}
    (notEnd : c.token ≠ .endOfInput) :
    ((read table expressions c).turn.closed (read table expressions c).cursor).size < c.size := by
  refine Nat.lt_of_le_of_lt ?_ (Cursor.length_ahead_lt_size notEnd)
  simp only [read]
  split
  · exact c.size_advance_le
  · exact size_attempt_le (Parser.consumes_definition table) .definition c
  · split
    · exact size_attempt_le (Parser.consumes_expression table) .expression c
    · exact c.size_advance_le

end Turn

end FormulaReader
