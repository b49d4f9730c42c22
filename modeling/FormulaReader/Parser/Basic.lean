import FormulaReader.Activity
import FormulaReader.Cursor
import FormulaReader.ParseError

/-!
Parsers: activities on a cursor that can fail with a violation of the grammar. That a parser only
reads on is part of its type, so repetition ends.
-/

namespace FormulaReader

structure Parser (α : Type) where
  run : Activity ParseError Cursor α
  path : ∀ c : Cursor, c.Path (run c).events (run c).state

namespace Parser

variable {α β γ : Type}

theorem path_andThen
    {c : Cursor}
    {o : Outcome ParseError Cursor α}
    {next : α → Parser β}
    (path : c.Path o.events o.state) :
    c.Path (Activity.andThen o fun a => (next a).run).events
      (Activity.andThen o fun a => (next a).run).state := by
  cases o with
  | mk result state events =>
      cases result with
      | error e => exact path
      | ok a => exact path.trans ((next a).path state)

instance : Monad Parser where
  pure a := ⟨pure a, fun _ => .stay⟩
  bind p next := ⟨p.run >>= fun a => (next a).run, fun c => path_andThen (p.path c)⟩
  map f p := ⟨f <$> p.run, p.path⟩

@[simp] theorem run_pure (a : α) : (pure a : Parser α).run = pure a := rfl

@[simp] theorem run_bind (p : Parser α) (next : α → Parser β) :
    (p >>= next).run = p.run >>= fun a => (next a).run := rfl

@[simp] theorem run_map (f : α → β) (p : Parser α) : (f <$> p).run = f <$> p.run := rfl

theorem eq_of_run {p q : Parser α} (same : p.run = q.run) : p = q := by
  cases p
  cases q
  congr

instance : LawfulMonad Parser :=
  LawfulMonad.mk' Parser
    (fun p => eq_of_run (id_map p.run))
    (fun a next => eq_of_run (pure_bind a fun b => (next b).run))
    (fun p next further =>
      eq_of_run (bind_assoc p.run (fun a => (next a).run) fun b => (further b).run))
    (fun _ _ => rfl) (fun _ _ => rfl) (fun _ _ => rfl)
    (fun f p => eq_of_run (bind_pure_comp f p.run))

/-- The token under the cursor. -/
def token : Parser Token :=
  ⟨fun c => ⟨.ok c.token, c, []⟩, fun _ => .stay⟩

/-- Reads on by one lexeme. -/
def advance : Parser Unit :=
  ⟨fun c => ⟨.ok (), c.advance, [.read c.advance.current]⟩, fun _ => .advance .stay⟩

/-- Fails at the token under the cursor. -/
def fail (fault : Fault) : Parser α :=
  ⟨fun c => ⟨.error ⟨c.position, fault⟩, c, []⟩, fun _ => .stay⟩

/-- Leaves a note. -/
def note (n : Note) : Parser Unit :=
  ⟨Activity.note n, fun _ => .note n .stay⟩

/-- Reads over `expected`, or fails with `fault` at whatever else is under the cursor. -/
def expect (expected : Token) (fault : Fault) : Parser Unit := do
  if (← token) = expected then advance else fail fault

/-- Reads on by one lexeme, then parses with `p`. From a token other than the end of the input
this makes progress. -/
def afterNext (p : Parser α) : Parser α := do
  advance
  p

theorem size_afterNext_lt (p : Parser α) {c : Cursor}
    (notEnd : c.token ≠ .endOfInput) :
    (p.afterNext.run c).state.size < c.size := by
  have rest : (p.run c.advance).state.size ≤ c.advance.size := (p.path c.advance).size_le
  exact Nat.lt_of_le_of_lt
    (Nat.le_trans rest c.size_advance_le) (Cursor.length_ahead_lt_size notEnd)

/-- Repeats an item as long as the token under the cursor leads to one, and collects the values.
The leading token is read over. -/
def manyFrom (lead : Token → Option β) (item : β → Parser α) (c : Cursor) :
    Outcome ParseError Cursor (List α) :=
  match lead c.token with
  | none => ⟨.ok [], c, []⟩
  | some b =>
      if c.token = .endOfInput then ⟨.ok [], c, []⟩
      else
        let first := (item b).afterNext.run c
        match first.result with
        | .error e => ⟨.error e, first.state, first.events⟩
        | .ok a => ((manyFrom lead item first.state).map (a :: ·)).after first.events
termination_by c.size
decreasing_by exact size_afterNext_lt (item b) ‹_›

theorem path_manyFrom (lead : Token → Option β) (item : β → Parser α) (c : Cursor) :
    c.Path (manyFrom lead item c).events (manyFrom lead item c).state := by
  fun_induction manyFrom lead item c with
  | case1 => exact .stay
  | case2 => exact .stay
  | case3 c b _ _ first e failed => exact (item b).afterNext.path c
  | case4 c b _ _ first a read ih => exact ((item b).afterNext.path c).trans ih

/-- As long as the token under the cursor leads to an item, reads over that token and parses the
item. -/
def many (lead : Token → Option β) (item : β → Parser α) : Parser (List α) :=
  ⟨manyFrom lead item, path_manyFrom lead item⟩

end Parser

end FormulaReader
