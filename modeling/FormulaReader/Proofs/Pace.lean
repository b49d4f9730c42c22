import FormulaReader.Proofs.Books

/-!
Pace: the parser does not go deeper without reading. A primary begins with a token that is read over
before any other primary is entered, so each entrance but one is paid for by a lexeme, and a call
enters at most one primary more than it reads lexemes.
-/

namespace FormulaReader

/-- The primaries entered from `t` on, together with those that are `owed` from before, are paid for
by the lexemes that were read, or all but the one in which the parser failed. -/
structure Tally.Pays {α : Type} (t : Tally) (owed : Nat) (o : Outcome ParseError Tally α) :
    Prop where
  read : ∀ a, o.result = .ok a →
    o.state.entrances.length + owed ≤ t.entrances.length + Event.readCount o.events
  failed : o.state.entrances.length + owed ≤ t.entrances.length + Event.readCount o.events + 1

namespace Tally

variable {α β : Type} {t m : Tally} {owed : Nat} {o : Outcome ParseError Tally α}

theorem pays_of_le
    (paid : o.state.entrances.length + owed ≤ t.entrances.length + Event.readCount o.events) :
    t.Pays owed o :=
  ⟨fun _ _ => paid, Nat.le_succ_of_le paid⟩

/-- What goes on after the debt was paid has to pay for itself. -/
theorem Pays.after {a : α} {events : List Event} {further : Outcome ParseError Tally β}
    (first : t.Pays owed (⟨.ok a, m, events⟩ : Outcome ParseError Tally α))
    (second : m.Pays 0 further) :
    t.Pays owed (further.after events) := by
  have paid : m.entrances.length + owed ≤ t.entrances.length + Event.readCount events :=
    first.read a rfl
  constructor
  · intro b succeeded
    have rest := second.read b succeeded
    rw [Outcome.state_after, Outcome.events_after, Event.readCount_append]
    omega
  · have rest := second.failed
    rw [Outcome.state_after, Outcome.events_after, Event.readCount_append]
    omega

/-- Being entered is a debt that the primary pays itself. -/
theorem Pays.leave (inside : t.enter.Pays 1 o) :
    t.Pays 0 ⟨o.result, o.state.leave, o.events⟩ := by
  have entered : t.enter.entrances.length = t.entrances.length + 1 := List.length_append
  have left : o.state.leave.entrances = o.state.entrances := rfl
  constructor
  · intro a succeeded
    have paid := inside.read a succeeded
    dsimp only
    rw [left]
    omega
  · have paid := inside.failed
    dsimp only
    rw [left]
    omega

end Tally

namespace Counter

variable {α β : Type} {t : Tally} {owed : Nat}

/-- From `t` on the first parser pays for the primaries that it enters, and for those that are owed.
Nothing is said of the second one. -/
def Paced (owed : Nat) (α : Type) (p _ : Counter α) (t : Tally) : Prop :=
  t.Pays owed (p.run t)

theorem Paced.bind {p q : Counter α} {next further : α → Counter β}
    (first : Paced owed α p q t)
    (second : ∀ a m, (p.run t).result = .ok a → (p.run t).state = m →
      Paced 0 β (next a) (further a) m) :
    Paced owed β (p >>= next) (q >>= further) t := by
  unfold Paced at first second ⊢
  rw [run_bind]
  cases shape : p.run t with
  | mk result m events =>
      rw [shape] at first second
      cases result with
      | error e => exact ⟨fun b impossible => (by cases impossible), first.failed⟩
      | ok a => exact first.after (second a m rfl rfl)

/-- Reading on pays for one primary. -/
theorem paced_opening (single : owed ≤ 1) :
    Steps.Opening Tally.token Tally.size (Paced 0) (Paced owed) where
  token_bind := by
    intro _ next _ t rest
    have looked : t.Pays owed ((lift Parser.token >>= next).run t) := by
      rw [run_token_bind]
      exact rest
    exact looked
  advance_bind := by
    intro _ next further t rest
    have moved : Paced owed Unit Steps.advance Steps.advance t :=
      Tally.pays_of_le (Nat.add_le_add_left single _)
    apply moved.bind
    intro _ m _ reached
    cases reached
    exact rest t.advance t.cursor.size_advance_le_size Cursor.size_advance_lt_size
  name?_bind := by
    intro _ next further t named unnamed
    rcases run_name? t with ⟨x, _, smaller, taken⟩ | ⟨_, taken⟩
    · have paid : Paced owed (Option String) name? name? t := by
        apply Tally.pays_of_le
        rw [taken]
        exact Nat.add_le_add_left single _
      apply paid.bind
      intro found m first reached
      rw [taken] at first reached
      cases first
      cases reached
      exact named x t.advance smaller
    · have missed : t.Pays owed ((name? >>= next).run t) := by
        rw [run_bind, taken, Activity.andThen_ok, Outcome.after_nil]
        exact unnamed
      exact missed
  fail := by
    intro _ fault t _
    constructor
    · intro a impossible
      cases impossible
    · exact Nat.add_le_add_left single _

theorem paced_congruence : Steps.Congruence Tally.token Tally.size (Paced 0) where
  toOpening := paced_opening (Nat.zero_le 1)
  pure a t := Tally.pays_of_le (Nat.le_refl _)
  bind := by
    intro _ _ p _ _ _ t first second
    apply first.bind
    intro a m _ reached
    exact second a m (reached ▸ (p.path t).size_le)
  advance t := Tally.pays_of_le (Nat.le_succ _)
  note x t := Tally.pays_of_le (Nat.le_refl _)

theorem paced_table (t : Tally) : Paced 0 Precedence table table t :=
  Tally.pays_of_le (Nat.le_refl _)

theorem paced_enter {guarded : Bool} {p q : Counter Expression}
    (inside : Paced 1 Expression p q t.enter) :
    Paced 0 Expression (enter guarded p) (enter guarded q) t := by
  by_cases stops : guarded = true ∧ Parser.nestingLimit ≤ t.opened
  · rw [Paced, run_enter_of_stops p stops]
    exact Tally.pays_of_le (Nat.le_refl _)
  · rw [Paced, run_enter_of_passes p stops]
    exact inside.leave

theorem paced_primary (guarded : Bool) (t : Tally) :
    Paced 0 Expression (primary guarded) (primary guarded) t := by
  induction size : t.size using Nat.strongRecOn generalizing t with
  | ind n ih =>
      rw [primary_eq]
      apply paced_enter
      apply (paced_opening (Nat.le_refl 1)).operand paced_congruence
      intro u smaller
      apply paced_congruence.chain paced_table
      intro v further
      have shorter : v.size < n := size ▸ Nat.lt_of_le_of_lt further smaller
      exact ih v.size shorter v rfl

theorem paced_expression (guarded : Bool) (t : Tally) :
    Paced 0 Expression (expression guarded) (expression guarded) t :=
  paced_congruence.chain paced_table fun u _ => paced_primary guarded u

end Counter

/-- Whatever is called for, the primaries entered on the way are paid for. -/
theorem Call.paced (call : Call) (t : Tally) :
    Counter.Paced 0 Answer call.counter call.counter t := by
  have kept := Counter.paced_congruence
  have inside := Counter.paced_expression true
  have operands := Counter.paced_primary true
  cases call with
  | next => exact kept.bind (kept.advance t) fun _ u _ => kept.pure _ u
  | primary => exact kept.bind (operands t) fun _ u _ => kept.pure _ u
  | group => exact kept.bind (kept.group fun u _ => inside u) fun _ u _ => kept.pure _ u
  | application =>
      exact kept.bind (kept.application fun u _ => inside u) fun _ u _ => kept.pure _ u
  | quantification =>
      exact kept.bind (kept.quantification fun u _ => inside u) fun _ u _ => kept.pure _ u
  | expression => exact kept.bind (inside t) fun _ u _ => kept.pure _ u
  | continuation least left =>
      exact kept.bind (kept.continuation Counter.paced_table (fun u _ => operands u) least left)
        fun _ u _ => kept.pure _ u
  | prototype => exact kept.bind kept.prototype fun _ u _ => kept.pure _ u
  | definition =>
      exact kept.bind (kept.definition inside) fun _ u _ => kept.pure _ u

end FormulaReader
