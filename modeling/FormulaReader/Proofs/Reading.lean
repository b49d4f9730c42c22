import FormulaReader.Parser.Grammar

/-!
Reading: what a parser that succeeds returns and where it ends. Every rule of the grammar has one
law that says when it succeeds, in terms of the parsers that it is made of.
-/

namespace FormulaReader

namespace Cursor

/-- From `c` on, reading over exactly `tokens` leads to `d`. -/
def Over : Cursor → List Token → Cursor → Prop
  | c, [], d => c = d
  | c, token :: later, d => c.token = token ∧ c.advance.Over later d

@[simp] theorem over_nil (c d : Cursor) : c.Over [] d ↔ c = d := Iff.rfl

@[simp] theorem over_cons (c d : Cursor) (token : Token) (later : List Token) :
    c.Over (token :: later) d ↔ c.token = token ∧ c.advance.Over later d := Iff.rfl

theorem over_append {c d : Cursor} {first second : List Token} :
    c.Over (first ++ second) d ↔ ∃ m : Cursor, c.Over first m ∧ m.Over second d := by
  induction first generalizing c with
  | nil => simp
  | cons token later ih =>
      simp only [List.cons_append, over_cons, ih]
      constructor
      · intro given
        rcases given with ⟨head, m, front, back⟩
        exact ⟨m, ⟨head, front⟩, back⟩
      · intro given
        rcases given with ⟨m, ⟨head, front⟩, back⟩
        exact ⟨head, m, front, back⟩

end Cursor

namespace Parser

variable {α β : Type}

/-- From `c` on, `p` succeeds with `a` and ends at `d`. -/
def Reads (p : Parser α) (c : Cursor) (a : α) (d : Cursor) : Prop :=
  (p.run c).result = .ok a ∧ (p.run c).state = d

/-! ## Building blocks -/

@[simp] theorem reads_pure {a b : α} {c d : Cursor} :
    (pure a : Parser α).Reads c b d ↔ b = a ∧ d = c := by
  simp only [Reads, run_pure, Activity.pure_apply, Except.ok.injEq]
  constructor
  · intro given
    rcases given with ⟨rfl, rfl⟩
    exact ⟨rfl, rfl⟩
  · intro given
    rcases given with ⟨rfl, rfl⟩
    exact ⟨rfl, rfl⟩

theorem reads_bind {p : Parser α} {next : α → Parser β} {c d : Cursor} {b : β} :
    (p >>= next).Reads c b d ↔ ∃ a m, p.Reads c a m ∧ (next a).Reads m b d := by
  simp only [Reads, run_bind, Activity.bind_apply]
  cases outcome : p.run c with
  | mk result m events =>
      cases result with
      | error e => simp
      | ok a =>
          simp only [Activity.andThen_ok, Outcome.result_after, Outcome.state_after]
          constructor
          · intro reached
            exact ⟨a, m, ⟨rfl, rfl⟩, reached⟩
          · intro given
            rcases given with ⟨a', m', ⟨sameValue, rfl⟩, reached⟩
            cases sameValue
            exact reached

@[simp] theorem reads_token {c d : Cursor} {t : Token} :
    token.Reads c t d ↔ t = c.token ∧ d = c := by
  simp only [Reads, token, Except.ok.injEq]
  constructor
  · intro given
    rcases given with ⟨rfl, rfl⟩
    exact ⟨rfl, rfl⟩
  · intro given
    rcases given with ⟨rfl, rfl⟩
    exact ⟨rfl, rfl⟩

@[simp] theorem reads_advance {c d : Cursor} {u : Unit} :
    advance.Reads c u d ↔ d = c.advance := by
  simp only [Reads, advance, true_and]
  exact eq_comm

@[simp] theorem reads_note {n : Note} {c d : Cursor} {u : Unit} :
    (note n).Reads c u d ↔ d = c := by
  constructor
  · intro given
    rcases given with ⟨_, rfl⟩
    rfl
  · intro same
    subst same
    exact ⟨rfl, rfl⟩

@[simp] theorem not_reads_fail {fault : Fault} {c d : Cursor} {a : α} :
    ¬ (fail fault : Parser α).Reads c a d := by
  simp [Reads, fail]

@[simp] theorem reads_map {f : α → β} {p : Parser α} {c d : Cursor} {b : β} :
    (f <$> p).Reads c b d ↔ ∃ a, p.Reads c a d ∧ b = f a := by
  rw [map_eq_pure_bind, reads_bind]
  constructor
  · intro given
    rcases given with ⟨a, m, first, second⟩
    obtain ⟨rfl, rfl⟩ := reads_pure.mp second
    exact ⟨a, first, rfl⟩
  · intro given
    rcases given with ⟨a, first, rfl⟩
    exact ⟨a, d, first, reads_pure.mpr ⟨rfl, rfl⟩⟩

theorem reads_bind_pure {f : α → β} {p : Parser α} {c d : Cursor} {b : β} :
    (p >>= fun a => pure (f a)).Reads c b d ↔ ∃ a, p.Reads c a d ∧ b = f a := by
  rw [bind_pure_comp, reads_map]

theorem reads_token_bind {next : Token → Parser α} {c d : Cursor} {a : α} :
    (token >>= next).Reads c a d ↔ (next c.token).Reads c a d := by
  rw [reads_bind]
  constructor
  · intro given
    rcases given with ⟨_, _, taken, rest⟩
    obtain ⟨rfl, rfl⟩ := reads_token.mp taken
    exact rest
  · intro rest
    exact ⟨c.token, c, reads_token.mpr ⟨rfl, rfl⟩, rest⟩

theorem reads_advance_bind {next : Unit → Parser α} {c d : Cursor} {a : α} :
    (advance >>= next).Reads c a d ↔ (next ()).Reads c.advance a d := by
  rw [reads_bind]
  constructor
  · intro given
    rcases given with ⟨_, _, moved, rest⟩
    rw [reads_advance.mp moved] at rest
    exact rest
  · intro rest
    exact ⟨(), c.advance, reads_advance.mpr rfl, rest⟩

@[simp] theorem reads_expect {expected : Token} {fault : Fault} {c d : Cursor} {u : Unit} :
    (expect expected fault).Reads c u d ↔ c.token = expected ∧ d = c.advance := by
  rw [expect, reads_token_bind]
  by_cases found : c.token = expected
  · simp [found]
  · simp [found]

@[simp] theorem reads_name? {c d : Cursor} {found : Option String} :
    name?.Reads c found d ↔
      (∃ x, c.token = .identifier x ∧ found = some x ∧ d = c.advance) ∨
        (∀ x, c.token ≠ .identifier x) ∧ found = none ∧ d = c := by
  rw [name?, reads_token_bind]
  cases c.token with
  | identifier x => simp [and_comm]
  | _ => simp

@[simp] theorem reads_name {missing : Fault} {c d : Cursor} {x : String} :
    (name missing).Reads c x d ↔ c.token = .identifier x ∧ d = c.advance := by
  rw [name, reads_bind]
  constructor
  · intro given
    rcases given with ⟨found, m, taken, rest⟩
    rcases reads_name?.mp taken with ⟨y, named, rfl, rfl⟩ | ⟨_, rfl, rfl⟩
    · obtain ⟨rfl, rfl⟩ := reads_pure.mp rest
      exact ⟨named, rfl⟩
    · exact absurd rest not_reads_fail
  · intro given
    rcases given with ⟨named, rfl⟩
    exact ⟨some x, c.advance, reads_name?.mpr (.inl ⟨x, named, rfl, rfl⟩),
      reads_pure.mpr ⟨rfl, rfl⟩⟩

theorem run_token_bind (next : Token → Parser α) (c : Cursor) :
    (token >>= next).run c = (next c.token).run c := by
  rw [run_bind, Activity.bind_apply]
  exact Outcome.after_nil _

/-! ## Repetition -/

/-- A repetition either ends at the token under the cursor or takes one more item. -/
theorem many_eq (lead : Token → Option β) (item : β → Parser α) :
    many lead item = token >>= fun t =>
      match lead t with
      | none => pure []
      | some b =>
          if t = .endOfInput then pure []
          else (item b).afterNext >>= fun a => (a :: ·) <$> many lead item := by
  apply eq_of_run
  funext c
  have unfolded : (many lead item).run c = manyFrom lead item c := rfl
  rw [unfolded, run_token_bind, manyFrom]
  cases lead c.token with
  | none => rfl
  | some b =>
      by_cases atEnd : c.token = .endOfInput
      · simp only [atEnd, if_true]
        rfl
      · simp only [atEnd, if_false, run_bind, Activity.bind_apply]
        cases outcome : (item b).afterNext.run c with
        | mk result m events =>
            cases result <;> rfl

/-- Any number of items, each after a token that leads to it, until a token leads to none. -/
inductive Repeats (lead : Token → Option β) (item : β → Parser α) :
    Cursor → List α → Cursor → Prop
  | stop {c : Cursor} :
      (∀ b, lead c.token = some b → c.token = .endOfInput) →
      Repeats lead item c [] c
  | step {c m d : Cursor} {b : β} {a : α} {later : List α} :
      lead c.token = some b →
      c.token ≠ .endOfInput →
      (item b).Reads c.advance a m →
      Repeats lead item m later d →
      Repeats lead item c (a :: later) d

theorem reads_many_succ {lead : Token → Option β} {item : β → Parser α} {c d : Cursor}
    {values : List α} :
    (many lead item).Reads c values d ↔
      ((∀ b, lead c.token = some b → c.token = .endOfInput) ∧ values = [] ∧ d = c) ∨
        ∃ b a later m, lead c.token = some b ∧ c.token ≠ .endOfInput ∧
          (item b).Reads c.advance a m ∧ (many lead item).Reads m later d ∧
          values = a :: later := by
  conv =>
    lhs
    rw [many_eq, reads_token_bind]
  cases leads : lead c.token with
  | none => simp
  | some b =>
      by_cases atEnd : c.token = .endOfInput
      · simp [atEnd]
      · simp only [atEnd, if_false, afterNext]
        constructor
        · intro reached
          obtain ⟨a, m, first, rest⟩ := reads_bind.mp reached
          obtain ⟨later, further, rfl⟩ := reads_map.mp rest
          exact .inr ⟨b, a, later, m, rfl, atEnd, reads_advance_bind.mp first, further, rfl⟩
        · intro given
          rcases given with ⟨impossible, _⟩ | ⟨b', a, later, m, same, _, first, further, rfl⟩
          · exact (impossible b rfl).elim
          · cases same
            exact reads_bind.mpr
              ⟨a, m, reads_advance_bind.mpr first, reads_map.mpr ⟨later, further, rfl⟩⟩

theorem reads_many {lead : Token → Option β} {item : β → Parser α} {c d : Cursor}
    {values : List α} :
    (many lead item).Reads c values d ↔ Repeats lead item c values d := by
  constructor
  · intro reached
    induction values generalizing c with
    | nil =>
        rcases reads_many_succ.mp reached with ⟨stops, _, rfl⟩ | ⟨_, _, _, _, _, _, _, _, same⟩
        · exact .stop stops
        · cases same
    | cons a later ih =>
        rcases reads_many_succ.mp reached with
          ⟨_, same, _⟩ | ⟨b, _, _, m, leads, notEnd, first, rest, same⟩
        · cases same
        · cases same
          exact .step leads notEnd first (ih rest)
  · intro repetition
    induction repetition with
    | stop stops => exact reads_many_succ.mpr (.inl ⟨stops, rfl, rfl⟩)
    | step leads notEnd first _ ih =>
        exact reads_many_succ.mpr (.inr ⟨_, _, _, _, leads, notEnd, first, ih, rfl⟩)

/-! ## The rules of the grammar -/

theorem reads_group {inner : Parser Expression} {c d : Cursor} {e : Expression} :
    (group inner).Reads c e d ↔
      ∃ m, inner.Reads c.advance e m ∧ m.token = .symbol ')' ∧ d = m.advance := by
  simp only [group, reads_bind, reads_advance, reads_expect, reads_pure]
  constructor
  · intro given
    rcases given with ⟨_, _, rfl, _, m, inside, _, _, ⟨closes, rfl⟩, rfl, rfl⟩
    exact ⟨m, inside, closes, rfl⟩
  · intro given
    rcases given with ⟨m, inside, closes, rfl⟩
    exact ⟨(), _, rfl, e, m, inside, (), _, ⟨closes, rfl⟩, rfl, rfl⟩

theorem reads_arguments {inner : Parser Expression} {c d : Cursor} {es : List Expression} :
    (arguments inner).Reads c es d ↔
      (c.token = .symbol ')' ∧ es = [] ∧ d = c.advance) ∨
        c.token ≠ .symbol ')' ∧ ∃ e later m n, inner.Reads c e m ∧
          Repeats comma (fun _ => inner) m later n ∧ n.token = .symbol ')' ∧
          d = n.advance ∧ es = e :: later := by
  rw [arguments, reads_token_bind]
  by_cases empty : c.token = .symbol ')'
  · simp [empty, and_comm]
  · simp only [empty, if_false, reads_bind, reads_many, reads_expect, reads_pure]
    constructor
    · intro given
      rcases given with ⟨e, m, first, later, n, further, _, _, ⟨closes, rfl⟩, rfl, rfl⟩
      exact .inr ⟨empty, e, later, m, n, first, further, closes, rfl, rfl⟩
    · intro given
      rcases given with ⟨impossible, _⟩ | ⟨_, e, later, m, n, first, further, closes, rfl, rfl⟩
      · exact impossible.elim
      · exact ⟨e, m, first, later, n, further, (), _, ⟨closes, rfl⟩, rfl, rfl⟩

theorem reads_application {inner : Parser Expression} {c d : Cursor} {e : Expression} :
    (application inner).Reads c e d ↔
      ∃ x, c.token = .identifier x ∧
        ((c.advance.token ≠ .symbol '(' ∧ e = .var x ∧ d = c.advance) ∨
          c.advance.token = .symbol '(' ∧
            ∃ es, (arguments inner).Reads c.advance.advance es d ∧ e = .call x es) := by
  rw [application, reads_token_bind]
  cases c.token with
  | identifier x =>
      simp only [Token.identifier.injEq, exists_eq_left']
      rw [reads_advance_bind, reads_token_bind]
      by_cases opens : c.advance.token = .symbol '('
      · rw [if_pos opens, reads_advance_bind]
        simp [opens]
      · simp [opens]
  | _ => simp

theorem reads_quantification {inner : Parser Expression} {c d : Cursor} {e : Expression} :
    (quantification inner).Reads c e d ↔
      ∃ quantifier x body m, c.Over [.quantifier quantifier, .identifier x, .symbol ','] m ∧
        inner.Reads m body d ∧ e = .quantified quantifier x body := by
  rw [quantification, reads_token_bind]
  cases found : c.token with
  | quantifier kind =>
      simp only [reads_bind, reads_advance, reads_name, reads_expect, reads_pure]
      constructor
      · intro given
        rcases given with ⟨_, _, rfl, x, _, ⟨named, rfl⟩, _, _, ⟨leads, rfl⟩, body, m, inside,
          rfl, rfl⟩
        exact ⟨kind, x, body, _, ⟨found, named, leads, rfl⟩, inside, rfl⟩
      · intro given
        rcases given with ⟨kind', x, body, m, ⟨same, named, leads, rfl⟩, inside, rfl⟩
        cases found.symm.trans same
        exact ⟨(), _, rfl, x, _, ⟨named, rfl⟩, (), _, ⟨leads, rfl⟩, body, d, inside, rfl, rfl⟩
  | _ => simp [found]

theorem reads_operand {inner : Parser Expression} {c d : Cursor} {e : Expression} :
    (operand inner).Reads c e d ↔
      (quantification inner).Reads c e d ∨ (application inner).Reads c e d ∨
        c.token = .symbol '(' ∧ (group inner).Reads c e d := by
  rw [operand, reads_token_bind, reads_quantification, reads_application]
  cases found : c.token with
  | symbol character =>
      by_cases opens : character = '('
      · subst opens
        simp [found]
      · simp [opens, found]
  | quantifier kind => simp [reads_quantification, found]
  | identifier x => simp [reads_application, found]
  | _ => simp [found]

/-! ## Room for nesting -/

/-- A definition with some room for nesting in its body. -/
def definitionWithin (table : Precedence) (room : Nat) : Parser Definition := do
  advance
  let head ← prototype
  let body ← chain table (primaryWithin table room)
  note (.readDefinition head.name)
  return ⟨head, body⟩

theorem definition_eq (table : Precedence) :
    definition table = definitionWithin table nestingLimit := rfl

end Parser

end FormulaReader
