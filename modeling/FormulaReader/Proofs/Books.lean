import FormulaReader.Proofs.Calls

/-!
The books of a parser between calls. Whatever it is asked for and however that ends, no primary is
left open, the table is the one it was made with, and the current token is the last one scanned. An
error is raised at the current token, so that dropping this one token is enough to go on.
-/

namespace FormulaReader

/-! ## Names that are scanned -/

theorem Scanner.isName_of_next {s : Scanner} {x : String}
    (named : s.next.1.token = .identifier x) :
    Text.isName x = true := by
  have more : s.characters.dropWhile isBlank ≠ [] := by
    intro finished
    have atEnd : s.next.1.token = .endOfInput := congrArg Sighting.token (next_of_over s finished)
    rw [named] at atEnd
    cases atEnd
  have found := congrArg (List.map Sighting.token) (finds_next s more).sightings
  rw [List.map_cons, Text.map_token_sightings] at found
  apply Text.isName_of_mem_tokensOf
  rw [found, ← named]
  exact List.mem_cons_self

theorem Scanner.isName_of_mem_calls {s : Scanner} {k : Nat} {x : String} :
    ∀ lexeme ∈ s.calls k, lexeme.token = .identifier x → Text.isName x = true := by
  induction k generalizing s with
  | zero => simp [calls]
  | succ k ih =>
      intro lexeme member
      rcases List.mem_cons.mp member with rfl | later
      · exact isName_of_next
      · exact ih lexeme later

namespace Cursor

variable {c d : Cursor}

/-- All identifiers from the cursor on are names. -/
def Named (c : Cursor) : Prop :=
  ∀ k x, (c.skip k).token = .identifier x → Text.isName x = true

theorem named_ofFeed (feed : Feed) : (ofFeed feed).Named := by
  intro k x found
  cases k with
  | zero => cases found
  | succ k =>
      have last := (Scanner.start feed).calls_succ k
      apply Scanner.isName_of_mem_calls (s := Scanner.start feed) (k := k + 1) _ _ found
      rw [last]
      exact List.mem_append_right _ (List.mem_singleton_self _)

theorem Named.skip (named : c.Named) (n : Nat) : (c.skip n).Named := by
  intro k x found
  rw [← skip_add] at found
  exact named (n + k) x found

theorem Named.of_path {events : List Event} (named : c.Named) (path : c.Path events d) :
    d.Named := by
  rw [path.eq_skip]
  exact named.skip _

end Cursor

/-! ## Between calls -/

/-- Between calls all primaries have been left again, none of them was entered with too many others
open, and the cursor has come along what was read. -/
structure Tally.Settled (feed : Feed) (table : Precedence) (t : Tally) (events : List Event) :
    Prop where
  opened : t.opened = 0
  table : t.table = table
  shallow : ∀ e ∈ t.entrances, e.opened < 256
  path : (Cursor.ofFeed feed).Path events t.cursor

namespace Tally

variable {feed : Feed} {table : Precedence} {t : Tally} {events : List Event}

theorem settled_start (feed : Feed) (table : Precedence) :
    (start feed table).Settled feed table [] :=
  ⟨rfl, rfl, by simp [start], .stay⟩

namespace Settled

/-- A call does what the plain parser does. -/
theorem alike (settled : t.Settled feed table events) (call : Call) :
    (call.counter.run t).result = ((call.parser table).run t.cursor).result ∧
      (call.counter.run t).state.cursor = ((call.parser table).run t.cursor).state ∧
      (call.counter.run t).events = ((call.parser table).run t.cursor).events := by
  obtain ⟨entered, follows, through⟩ := call.followsAt table t settled.opened settled.table
  exact follows.alike (through rfl)

theorem raised (settled : t.Settled feed table events) (call : Call) {e : ParseError}
    (failed : (call.counter.run t).result = .error e) :
    e = (call.counter.run t).state.cursor.raise e.fault := by
  obtain ⟨entered, follows, _⟩ := call.followsAt table t settled.opened settled.table
  exact follows.raised e failed

/-- After a call, also if it failed, the books are as settled as before. -/
theorem call (settled : t.Settled feed table events) (call : Call) :
    (call.counter.run t).state.Settled feed table (events ++ (call.counter.run t).events) := by
  obtain ⟨entered, follows, through⟩ := call.followsAt table t settled.opened settled.table
  refine ⟨follows.opened.trans settled.opened, follows.table.trans settled.table, ?_,
    settled.path.trans (call.counter.path t)⟩
  rw [follows.entrances]
  intro e member
  rcases List.mem_append.mp member with earlier | entering
  · exact settled.shallow e earlier
  · exact Entrance.stop?_eq_none_iff.mp (through rfl) e entering

theorem runAll (settled : t.Settled feed table events) (calls : List Call) :
    (Call.runAll calls t).1.Settled feed table (events ++ (Call.runAll calls t).2) := by
  induction calls generalizing t events with
  | nil =>
      rw [Call.runAll, List.append_nil]
      exact settled
  | cons first later ih =>
      have rest := ih (settled.call first)
      rw [List.append_assoc] at rest
      exact rest

theorem runAll_alike (settled : t.Settled feed table events) (calls : List Call) :
    ((Call.runAll calls t).1.cursor, (Call.runAll calls t).2) =
      Call.readAll table calls t.cursor := by
  induction calls generalizing t events with
  | nil => rfl
  | cons first later ih =>
      obtain ⟨_, cursor, firstEvents⟩ := settled.alike first
      have rest := ih (settled.call first)
      rw [cursor] at rest
      rw [Call.readAll, ← rest, ← firstEvents]
      rfl

theorem named (settled : t.Settled feed table events) : t.cursor.Named :=
  (Cursor.named_ofFeed feed).of_path settled.path

theorem token_ne (settled : t.Settled feed table events) : t.cursor.token ≠ .identifier "" := by
  intro taken
  exact Text.ne_of_isName (settled.named 0 "" taken) rfl

end Settled

end Tally

/-- The books balance between calls. Whatever a parser has been asked for, on whatever source and
with whatever table, no primary is open, and none was ever entered in which 256 others were open.
The table is the one that the parser was made with. What has been read is what as many calls of the
scanner give, the current token is the last of it, with its position, or a blank if nothing has been
read, and never a name that was taken away. The next call, whatever it is, does the same as without
books, and if it fails, then at the token that is current afterwards, which is also the one that is
quoted. -/
theorem books_balance (feed : Feed) (table : Precedence) (calls : List Call) :
    let t := (Call.runAll calls (.start feed table)).1
    let events := (Call.runAll calls (.start feed table)).2
    t.opened = 0 ∧ (∀ e ∈ t.entrances, e.opened < 256) ∧ t.table = table ∧
    Event.lexemes events = (Scanner.start feed).calls (Event.lexemes events).length ∧
    t.cursor.current = (Event.lexemes events).getLastD ⟨.symbol ' ', ⟨1, 1⟩, []⟩ ∧
    t.cursor.token ≠ .identifier "" ∧
    (t.cursor, events) = Call.readAll table calls (.ofFeed feed) ∧
    ∀ call : Call,
      (call.counter.run t).result = ((call.parser table).run t.cursor).result ∧
      ∀ e, (call.counter.run t).result = .error e →
        e.position = (call.counter.run t).state.cursor.position ∧
        ∀ found, e.fault = .expectedExpression found →
          found = (call.counter.run t).state.cursor.token := by
  intro t events
  have settled : t.Settled feed table events := (Tally.settled_start feed table).runAll calls
  obtain ⟨scanned, current⟩ := settled.path.lexemes_eq
  refine ⟨settled.opened, settled.shallow, settled.table, scanned, current, settled.token_ne,
    (Tally.settled_start feed table).runAll_alike calls, ?_⟩
  intro call
  refine ⟨(settled.alike call).1, ?_⟩
  intro e failed
  have raised := settled.raised call failed
  refine ⟨congrArg ParseError.position raised, ?_⟩
  intro found quoted
  have fault := congrArg ParseError.fault raised
  rw [quoted] at fault
  exact Fault.expectedExpression.inj fault

end FormulaReader
