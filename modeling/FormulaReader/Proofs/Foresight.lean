import Mathlib.Control.Monad.Basic
import FormulaReader.Proofs.Calls

/-!
Foresight: a call of the parser sees the token at which it stops, and nothing behind that. So two
inputs that agree up to this token are read alike. A call that succeeds does not even need to see
which token ends it, as long as that one ends it, which the end of the input always does.
-/

namespace FormulaReader

namespace Cursor

variable {c d : Cursor} {n : Nat}

/-- From both cursors on the next `n` tokens are the same. -/
def AgreesFor (n : Nat) (c d : Cursor) : Prop :=
  ∀ i < n, (c.skip i).token = (d.skip i).token

instance : Decidable (AgreesFor n c d) :=
  inferInstanceAs (Decidable (∀ i < n, (c.skip i).token = (d.skip i).token))

/-- An error that is raised at a token depends on this token and its position only. -/
theorem raise_of_sighting (same : c.current.sighting = d.current.sighting) (fault : Fault) :
    c.raise fault = d.raise fault := by
  have token : c.token = d.token := congrArg Sighting.token same
  have position : c.position = d.position := congrArg Sighting.start same
  rw [raise, raise, token, position]

end Cursor

namespace Parser

variable {α : Type} {p : Parser α} {c d : Cursor}

/-- Where the tokens agree up to the one at which the first parse stops, and this one stands at the
same place, the second parse comes to the same end. -/
theorem SteadyAt.read_alike (steady : p.SteadyAt c)
    (agrees : Cursor.AgreesFor (Event.readCount (p.run c).events) c d)
    (stop : (c.skip (Event.readCount (p.run c).events)).current.sighting =
      (d.skip (Event.readCount (p.run c).events)).current.sighting) :
    (p.run d).result = (p.run c).result ∧
      Event.readCount (p.run d).events = Event.readCount (p.run c).events := by
  have stands : StandsIn (p.run c) c d := ⟨agrees, .inl (congrArg Sighting.token stop)⟩
  have mirror := steady d stands
  refine ⟨?_, Event.readCount_of_outline mirror.outline⟩
  rw [mirror.result]
  cases result : (p.run c).result with
  | ok a => rfl
  | error e =>
      have raised := steady.error_eq result
      rw [state_eq_skip, Cursor.raise_of_sighting stop, ← steady.state_eq stands] at raised
      exact congrArg Except.error raised.symm

/-- A parse that succeeds succeeds as well where the input ends at the token at which it stops. -/
theorem SteadyAt.read_to_end {a : α} (steady : p.SteadyAt c)
    (succeeded : (p.run c).result = .ok a)
    (agrees : Cursor.AgreesFor (Event.readCount (p.run c).events) c d)
    (ends : (d.skip (Event.readCount (p.run c).events)).token = .endOfInput) :
    (p.run d).result = .ok a ∧ (p.run d).state.token = .endOfInput := by
  have foreign : (d.skip (Event.readCount (p.run c).events)).token.foreign = true := by
    rw [ends]
    rfl
  have stands : StandsIn (p.run c) c d := ⟨agrees, .inr ⟨foreign, .inl ⟨a, succeeded⟩⟩⟩
  refine ⟨?_, ?_⟩
  · rw [(steady d stands).result, succeeded]
    rfl
  · rw [steady.state_eq stands]
    exact ends

end Parser

/-! ## Calls -/

namespace Call

theorem steadyAt (call : Call) (table : Precedence) (room : Nat) (c : Cursor) :
    (call.parserWithin table room).SteadyAt c := by
  have operands := Parser.localAt_primaryWithin table room
  have inside := Parser.localAt_chainWithin table room
  have answered : ∀ {α : Type} {p : Parser α} (answer : α → Answer), p.SteadyAt c →
      (p >>= fun a => pure (answer a)).SteadyAt c := by
    intro α p answer steady
    exact steady.bind fun a _ => Parser.steadyAt_pure (answer a) _
  -- The opening token of a group and of a definition is read over unseen, even if it is the end of
  -- the input, so only what comes after it is local.
  have behind : ∀ {α : Type} {p : Parser α} (answer : α → Answer), (∀ m, p.LocalAt m) →
      ((Parser.advance >>= fun _ => p) >>= fun a => pure (answer a)).SteadyAt c := by
    intro α p answer isLocal
    exact answered answer ((Parser.steadyAt_advance c).bind fun _ _ => (isLocal _).steady)
  cases call with
  | next => exact answered (fun _ => .moved) (Parser.steadyAt_advance c)
  | primary => exact answered .expression (operands c).steady
  | group => exact behind .expression (Parser.localAt_grouped inside)
  | application => exact answered .expression (Parser.localAt_application inside c).steady
  | quantification => exact answered .expression (Parser.localAt_quantification inside c).steady
  | expression => exact answered .expression (inside c).steady
  | continuation least left =>
      exact answered .expression (Parser.localAt_continuation operands left c).steady
  | prototype => exact answered .prototype (Parser.localAt_prototype c).steady
  | definition => exact behind .definition (Parser.localAt_defined table room)

/-- In whatever state a call is made, it does what the plain one does that has room for as many
primaries as may still be opened. -/
theorem alike (call : Call) (t : Tally) :
    let plain := (call.parserWithin t.table (Parser.nestingLimit - t.opened)).run t.cursor
    (call.counter.run t).result = plain.result ∧
      (call.counter.run t).state.cursor = plain.state ∧
      (call.counter.run t).events = plain.events := by
  obtain ⟨entered, follows, through⟩ := call.followsAtWithin t.table t.opened t rfl rfl
  exact follows.alike (through rfl)

/-- One token of lookahead decides. Of two parsers with the same table and as many primaries open,
let the second one have the tokens before it that a call reads over at the first, whatever their
positions, and then, at the same position, the token at which that call stops. There the second
answers as the first does, with the same value or the same error, and stops at this token too. And
if the first succeeds, the second gives the same value where it has the end of the input in place of
that token. -/
theorem decided_by_one_token (call : Call) {t u : Tally}
    (sameTable : u.table = t.table)
    (sameOpened : u.opened = t.opened) :
    let outcome := call.counter.run t
    let other := call.counter.run u
    let count := (Event.lexemes outcome.events).length
    outcome.state.cursor = t.cursor.skip count ∧
      (t.cursor.AgreesFor count u.cursor →
        (t.cursor.skip count).current.sighting = (u.cursor.skip count).current.sighting →
        other.result = outcome.result ∧ other.state.cursor = u.cursor.skip count ∧
          other.state.cursor.current.sighting = outcome.state.cursor.current.sighting) ∧
      ∀ answer, outcome.result = .ok answer → t.cursor.AgreesFor count u.cursor →
        (u.cursor.skip count).token = .endOfInput →
        other.result = .ok answer ∧ other.state.cursor.token = .endOfInput := by
  intro outcome other count
  have counted : count = Event.readCount outcome.events := (call.counter.path t).length_lexemes
  have reached : outcome.state.cursor = t.cursor.skip count := by
    rw [counted]
    exact (call.counter.path t).eq_skip
  have otherReached := (call.counter.path u).eq_skip
  obtain ⟨result, _, events⟩ := call.alike t
  obtain ⟨otherResult, otherCursor, otherEvents⟩ := call.alike u
  rw [sameTable, sameOpened] at otherResult otherCursor otherEvents
  have steady := call.steadyAt t.table (Parser.nestingLimit - t.opened) t.cursor
  have plainCount : count = Event.readCount
      ((call.parserWithin t.table (Parser.nestingLimit - t.opened)).run t.cursor).events := by
    rw [counted]
    exact congrArg Event.readCount events
  refine ⟨reached, ?_, ?_⟩
  · intro agrees stop
    rw [plainCount] at agrees stop
    obtain ⟨sameResult, sameCount⟩ := steady.read_alike agrees stop
    have stopped : other.state.cursor = u.cursor.skip count := by
      rw [plainCount, ← sameCount, ← otherEvents]
      exact otherReached
    refine ⟨otherResult.trans (sameResult.trans result.symm), stopped, ?_⟩
    rw [stopped, reached, plainCount]
    exact stop.symm
  · intro answer succeeded agrees ends
    rw [plainCount] at agrees ends
    obtain ⟨sameAnswer, ended⟩ := steady.read_to_end (result.symm.trans succeeded) agrees ends
    refine ⟨otherResult.trans sameAnswer, ?_⟩
    rw [← otherCursor] at ended
    exact ended

/-- With 254 primaries open there is room for the group and what is in it. One of the names stands
elsewhere in the second input, and the third one is over behind the group. -/
theorem decided_at_closing_parenthesis :
    let atFirst := fun source : String =>
      { (Call.runAll [.next] (.start (source.toList.map some) .standard)).1 with opened := 254 }
    let t := atFirst "(a /\\ b) ) c"
    let u := atFirst "(a /\\b ) ) def"
    let alone := atFirst "(a /\\ b)"
    let answer : Answer := .expression (.binary .and (.var "a") (.var "b"))
    (t.cursor.skip 3).current.start ≠ (u.cursor.skip 3).current.start ∧
      (expression.counter.run t).result = .ok answer ∧
      (expression.counter.run u).result = .ok answer ∧
      (expression.counter.run u).state.cursor.current.sighting = ⟨.symbol ')', ⟨1, 10⟩⟩ ∧
      (expression.counter.run alone).result = .ok answer := by
  intro atFirst t u alone answer
  have answered : (expression.counter.run t).result = .ok answer := by decide +kernel
  have count : (Event.lexemes (expression.counter.run t).events).length = 5 := by decide +kernel
  have stopped : (expression.counter.run t).state.cursor.current.sighting =
      ⟨.symbol ')', ⟨1, 10⟩⟩ := by
    decide +kernel
  obtain ⟨_, alike, _⟩ := decided_by_one_token expression (t := t) (u := u) rfl rfl
  obtain ⟨_, _, atEnd⟩ := decided_by_one_token expression (t := t) (u := alone) rfl rfl
  rw [count] at alike atEnd
  obtain ⟨sameAnswer, _, sameStop⟩ := alike (by decide +kernel) (by decide +kernel)
  obtain ⟨shorter, _⟩ := atEnd answer answered (by decide +kernel) (by decide +kernel)
  exact ⟨by decide +kernel, answered, sameAnswer.trans answered, sameStop.trans stopped, shorter⟩

end Call

end FormulaReader
