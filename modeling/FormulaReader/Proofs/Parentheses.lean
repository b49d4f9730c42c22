import FormulaReader.Proofs.Nesting
import FormulaReader.Proofs.Resynchronisation
import FormulaReader.Proofs.Words

/-!
Parentheses: around a whole text they change nothing but how deep it is nested. How deep a text was
nested shows in the books of the parser, as the largest number of primaries that were open at once,
so these books tell in advance how many parentheses the text will bear.
-/

namespace FormulaReader

/-! ## The largest number of open primaries -/

namespace Tally

/-- The largest number of primaries that were open at once. -/
def peak (t : Tally) : Nat :=
  t.entrances.foldr (fun e most => max (e.opened + 1) most) 0

theorem peak_le_iff {t : Tally} {n : Nat} : t.peak ≤ n ↔ ∀ e ∈ t.entrances, e.opened < n := by
  rw [peak]
  induction t.entrances with
  | nil => simp
  | cons e later ih => rw [List.foldr_cons, Nat.max_le, ih, List.forall_mem_cons, Nat.succ_le_iff]

end Tally

/-! ## More primaries open from the start -/

/-- The entrance with `d` more primaries open. -/
def Entrance.raise (d : Nat) (e : Entrance) : Entrance :=
  { e with opened := e.opened + d }

namespace Tally

variable {α : Type} {t : Tally} {d : Nat}

/-- The books with `d` more primaries open all the time. -/
def raise (d : Nat) (t : Tally) : Tally :=
  { t with opened := t.opened + d, entrances := t.entrances.map (·.raise d) }

def raiseEnd (d : Nat) (o : Outcome ParseError Tally α) : Outcome ParseError Tally α :=
  { o with state := o.state.raise d }

theorem enter_raise (d : Nat) (t : Tally) : (t.raise d).enter = t.enter.raise d := by
  simp [enter, raise, Entrance.raise, Nat.add_right_comm]

theorem leave_raise (inside : 0 < t.opened) : (t.raise d).leave = t.leave.raise d := by
  have moved : t.opened + d - 1 = t.opened - 1 + d := by omega
  simp [leave, raise, moved]

end Tally

namespace Counter

variable {α β : Type} {d : Nat} {t : Tally}

/-- If `p` succeeds from `t` on, it has left as many primaries as it entered, and with `d` more open
from the start `q` does the same. -/
def RaisesAt (d : Nat) (α : Type) (p q : Counter α) (t : Tally) : Prop :=
  ∀ a, (p.run t).result = .ok a →
    (p.run t).state.opened = t.opened ∧ q.run (t.raise d) = Tally.raiseEnd d (p.run t)

theorem RaisesAt.bind {p q : Counter α} {next further : α → Counter β}
    (first : RaisesAt d α p q t)
    (second : ∀ a m, (p.run t).result = .ok a → (p.run t).state = m →
      RaisesAt d β (next a) (further a) m) :
    RaisesAt d β (p >>= next) (q >>= further) t := by
  unfold RaisesAt at first ⊢
  rw [run_bind, run_bind]
  cases shape : p.run t with
  | mk result m events =>
      rw [shape] at first second
      cases result with
      | error e =>
          intro b impossible
          cases impossible
      | ok a =>
          obtain ⟨opened, same⟩ := first a rfl
          rw [same]
          intro b succeeded
          obtain ⟨openedStill, sameStill⟩ := second a m rfl rfl b succeeded
          exact ⟨openedStill.trans opened, congrArg (Outcome.after events) sameStill⟩

theorem raisesAt_of_eq {p q : Counter α}
    (opened : (p.run t).state.opened = t.opened)
    (same : q.run (t.raise d) = Tally.raiseEnd d (p.run t)) :
    RaisesAt d α p q t :=
  fun _ _ => ⟨opened, same⟩

theorem run_name?_raise (d : Nat) (t : Tally) :
    name?.run (t.raise d) = Tally.raiseEnd d (name?.run t) := by
  have sameToken : (t.raise d).token = t.token := rfl
  simp only [name?, sameToken]
  cases t.token <;> rfl

theorem raisesAt_congruence (d : Nat) :
    Steps.Congruence Tally.token Tally.size (RaisesAt d) where
  pure a t := raisesAt_of_eq rfl rfl
  bind := by
    intro _ _ p _ _ _ t first second
    apply first.bind
    intro a m _ reached
    exact second a m (reached ▸ (p.path t).size_le)
  token_bind := by
    intro _ next further t rest
    have looked : RaisesAt d _ (lift Parser.token >>= next) (lift Parser.token >>= further) t := by
      unfold RaisesAt
      rw [run_token_bind, run_token_bind]
      exact rest
    exact looked
  advance t := raisesAt_of_eq rfl rfl
  advance_bind := by
    intro _ next further t rest
    have moved : RaisesAt d Unit Steps.advance Steps.advance t := raisesAt_of_eq rfl rfl
    apply moved.bind
    intro _ m _ reached
    cases reached
    exact rest t.advance t.cursor.size_advance_le_size Cursor.size_advance_lt_size
  name?_bind := by
    intro _ next further t named unnamed
    rcases run_name? t with ⟨x, _, smaller, taken⟩ | ⟨_, taken⟩
    · have read : RaisesAt d (Option String) name? name? t :=
        raisesAt_of_eq (congrArg (·.state.opened) taken) (run_name?_raise d t)
      apply read.bind
      intro found m first reached
      rw [taken] at first reached
      cases first
      cases reached
      exact named x t.advance smaller
    · have missed : RaisesAt d (Option String) name? name? t :=
        raisesAt_of_eq (congrArg (·.state.opened) taken) (run_name?_raise d t)
      apply missed.bind
      intro found m first reached
      rw [taken] at first reached
      cases first
      cases reached
      exact unnamed
  fail := by
    intro _ _ _ _ a impossible
    cases impossible
  note x t := raisesAt_of_eq rfl rfl

/-- A primary that the guard lets through is entered without the guard too. -/
theorem raisesAt_enter {p q : Counter Expression} (inside : RaisesAt d Expression p q t.enter) :
    RaisesAt d Expression (enter true p) (enter false q) t := by
  intro e succeeded
  by_cases stops : true = true ∧ Parser.nestingLimit ≤ t.opened
  · rw [run_enter_of_stops p stops] at succeeded
    cases succeeded
  · have free : ¬ (false = true ∧ Parser.nestingLimit ≤ (t.raise d).opened) := by simp
    rw [run_enter_of_passes p stops] at succeeded ⊢
    obtain ⟨opened, same⟩ := inside e succeeded
    have deeper : (p.run t.enter).state.opened = t.opened + 1 := opened
    refine ⟨Nat.sub_eq_of_eq_add deeper, ?_⟩
    have left : ((p.run t.enter).state.raise d).leave = (p.run t.enter).state.leave.raise d :=
      Tally.leave_raise (by omega)
    rw [run_enter_of_passes q free, t.enter_raise, same]
    exact congrArg (Outcome.mk _ · _) left

theorem raisesAt_primary (d : Nat) (t : Tally) :
    RaisesAt d Expression (primary true) (primary false) t := by
  induction size : t.size using Nat.strongRecOn generalizing t with
  | ind n ih =>
      rw [primary_eq true, primary_eq false]
      apply raisesAt_enter
      apply (raisesAt_congruence d).operand
      intro u smaller
      apply (raisesAt_congruence d).chain fun v => raisesAt_of_eq rfl rfl
      intro v further
      have shorter : v.size < n := size ▸ Nat.lt_of_le_of_lt further smaller
      exact ih v.size shorter v rfl

theorem raisesAt_whole_expression (d : Nat) (t : Tally) :
    RaisesAt d Expression (Rules.whole (expression true)) (Rules.whole (expression false)) t := by
  apply (raisesAt_congruence d).whole
  intro u
  apply (raisesAt_congruence d).chain fun v => raisesAt_of_eq rfl rfl
  intro v _
  exact raisesAt_primary d v

/-- With `opened` primaries open, a text is read as the grammar has it, as far as the guard lets
through. -/
theorem followsAt_whole_expression (guarded : Bool) (opened : Nat) (table : Precedence) (t : Tally) :
    FollowsAt guarded opened table (Rules.whole (expression guarded))
      (Parser.whole (Parser.chain table
        (Parser.primaryWithin table (Parser.nestingLimit - opened)))) t := by
  have kept := followsAt_congruence guarded opened table
  rw [← Parser.rules_whole, ← Parser.rules_chain]
  apply kept.whole
  intro u
  apply kept.chain followsAt_table
  intro v _ isOpened
  have rule := @followsAt_primary table guarded v
  rw [isOpened] at rule
  exact rule isOpened

end Counter

/-! ## The nesting of a text -/

/-- What the parser does with a text as an expression, its books included. -/
def countExpression (source : String) (table : Precedence) :
    Outcome ParseError Tally Expression :=
  (Rules.whole (Counter.expression true)).run (.start (source.toList.map some) table)

variable {source : String} {table : Precedence} {e : Expression}

/-- With the books, a text is parsed as it is without. -/
theorem result_countExpression (source : String) (table : Precedence) :
    (countExpression source table).result = (parseExpression source table).result := by
  obtain ⟨entered, follows, through⟩ := Counter.followsAt_whole_expression true 0 table
    (.start (source.toList.map some) table) rfl rfl
  exact (follows.alike (through rfl)).1

/-- The primaries that were open at once would have fit into less room just if the text would have
been parsed there. -/
theorem peak_countExpression_le_iff (parsed : (parseExpression source table).result = .ok e)
    {room : Nat} (within : room ≤ 256) :
    (countExpression source table).state.peak ≤ room ↔
      ((Parser.whole (Parser.chain table (Parser.primaryWithin table room))).run
        (Cursor.ofFeed (source.toList.map some))).result = .ok e := by
  let d := 256 - room
  have left : Parser.nestingLimit - d = room := Nat.sub_sub_self within
  have full : room + d = 256 := Nat.add_sub_of_le within
  have counted : (countExpression source table).result = .ok e :=
    (result_countExpression source table).trans parsed
  obtain ⟨_, raised⟩ := Counter.raisesAt_whole_expression d _ e counted
  obtain ⟨entered, follows, _⟩ := Counter.followsAt_whole_expression false d table
    (Tally.raise d (.start (source.toList.map some) table)) (Nat.zero_add d) rfl
  rw [raised, left] at follows
  have entrances : (countExpression source table).state.entrances.map (·.raise d) = entered :=
    follows.entrances
  have fits : (countExpression source table).state.peak ≤ room ↔ Entrance.stop? entered = none := by
    rw [Tally.peak_le_iff, Entrance.stop?_eq_none_iff, ← entrances, List.forall_mem_map]
    refine forall₂_congr fun e _ => ?_
    change e.opened < room ↔ e.opened + d < 256
    omega
  rw [fits]
  constructor
  · intro through
    exact (follows.alike through).1.symm.trans counted
  · intro read
    cases stop : Entrance.stop? entered with
    | none => rfl
    | some e => cases read.symm.trans (follows.stopped e stop).2

/-- In a text that is parsed as many primaries are open at once as are nested in one another in the
phrase that it consists of. -/
theorem peak_countExpression {phrase : Phrase}
    (same : phrase.tokens = Text.tokens source)
    (maximal : phrase.Maximal)
    (shallow : phrase.nesting ≤ 256)
    (binds : table.Binds phrase.tokens) :
    (countExpression source table).state.peak = phrase.nesting := by
  have reads : ∀ room, phrase.nesting ≤ room →
      ((Parser.whole (Parser.chain table (Parser.primaryWithin table room))).run
        (Cursor.ofFeed (source.toList.map some))).result = .ok (phrase.tree table) := by
    intro room fits
    exact (Parser.result_whole_chain_iff source table room _).mpr
      ⟨phrase, same, maximal, fits, binds, rfl⟩
  have parsed : (parseExpression source table).result = .ok (phrase.tree table) := reads 256 shallow
  have enough : (countExpression source table).state.peak ≤ phrase.nesting :=
    (peak_countExpression_le_iff parsed shallow).mpr (reads _ (Nat.le_refl _))
  have least := (peak_countExpression_le_iff parsed (Nat.le_trans enough shallow)).mp (Nat.le_refl _)
  obtain ⟨other, otherSame, otherMaximal, fits, _⟩ :=
    (Parser.result_whole_chain_iff source table _ _).mp least
  rw [Phrase.eq_of_tokens_eq otherMaximal maximal (otherSame.trans same.symm)] at fits
  exact Nat.le_antisymm enough fits

/-! ## Parentheses around a text -/

/-- The text in `k` pairs of parentheses. -/
def Text.enclosed (k : Nat) (source : String) : String :=
  String.ofList (List.replicate k '(' ++ source.toList ++ List.replicate k ')')

/-- The phrase in `k` groups. -/
def Phrase.enclosed (phrase : Phrase) : Nat → Phrase
  | 0 => phrase
  | k + 1 => .chain (.group (phrase.enclosed k)) []

theorem Text.tokensOf_replicate_append {c : Char} (plain : c ∈ ['(', ')', ',']) (k : Nat)
    (cs : List Char) :
    tokensOf (List.replicate k c ++ cs) = List.replicate k (.symbol c) ++ tokensOf cs := by
  induction k with
  | zero => rfl
  | succ k ih =>
      rw [List.replicate_succ, List.cons_append, tokensOf_punctuation _ plain, ih,
        List.replicate_succ, List.cons_append]

theorem Text.tokens_enclosed (k : Nat) (source : String) :
    tokens (enclosed k source) =
      List.replicate k (.symbol '(') ++ tokens source ++ List.replicate k (.symbol ')') := by
  have closing : tokensOf (source.toList ++ List.replicate k ')') =
      tokensOf source.toList ++ List.replicate k (.symbol ')') := by
    cases k with
    | zero => rw [List.replicate_zero, List.replicate_zero, List.append_nil, List.append_nil]
    | succ k =>
        have further := tokensOf_replicate_append (c := ')') (by decide) k []
        rw [List.append_nil, tokensOf_nil, List.append_nil] at further
        have lone : Lone ')' := by constructor <;> decide
        rw [List.replicate_succ, tokensOf_append_lone lone, further, List.replicate_succ]
  rw [tokens_eq, tokens_eq, enclosed, String.toList_ofList, List.append_assoc,
    tokensOf_replicate_append (by decide), closing, List.append_assoc]

namespace Phrase

theorem tokens_enclosed (phrase : Phrase) (k : Nat) :
    (phrase.enclosed k).tokens =
      List.replicate k (.symbol '(') ++ phrase.tokens ++ List.replicate k (.symbol ')') := by
  induction k with
  | zero => simp [enclosed]
  | succ k ih =>
      rw [enclosed, tokens_single, Primary.tokens, ih, List.replicate_succ, List.replicate_succ']
      simp

theorem nesting_enclosed (phrase : Phrase) (k : Nat) :
    (phrase.enclosed k).nesting = phrase.nesting + k := by
  induction k with
  | zero => rfl
  | succ k ih => rw [enclosed, nesting_single, Primary.nesting, ih, Nat.add_assoc]

theorem maximal_enclosed {phrase : Phrase} (maximal : phrase.Maximal) (k : Nat) :
    (phrase.enclosed k).Maximal := by
  induction k with
  | zero => exact maximal
  | succ k ih => exact maximal_single ih

theorem tree_enclosed (table : Precedence) (phrase : Phrase) (k : Nat) :
    (phrase.enclosed k).tree table = phrase.tree table := by
  induction k with
  | zero => rfl
  | succ k ih => rw [enclosed, tree_single, Primary.tree, ih]

theorem binds_enclosed {phrase : Phrase} (binds : table.Binds phrase.tokens) (k : Nat) :
    table.Binds (phrase.enclosed k).tokens := by
  intro kind member
  apply binds kind
  simpa [tokens_enclosed, List.mem_replicate] using member

end Phrase

/-- Parentheses around a text are transparent up to the limit on nesting. Of a text that is parsed the
books tell how many primaries were open at once. In `k` more pairs of parentheses it is parsed to the
same formula if that number and `k` together are within the limit, and is found too deep otherwise. -/
theorem parseExpression_enclosed (parsed : (parseExpression source table).result = .ok e) (k : Nat) :
    let counted := countExpression source table
    let n := counted.state.peak
    counted.result = .ok e ∧
      (n + k ≤ 256 ∧ (parseExpression (Text.enclosed k source) table).result = .ok e ∨
        256 < n + k ∧ ∃ position,
          (parseExpression (Text.enclosed k source) table).result =
            .error ⟨position, .tooDeep 256⟩) := by
  intro counted n
  refine ⟨(result_countExpression source table).trans parsed, ?_⟩
  obtain ⟨phrase, same, maximal, shallow, binds, rfl⟩ :=
    (parseExpression_ok_iff source table e).mp parsed
  have nesting : n = phrase.nesting := peak_countExpression same maximal shallow binds
  have sameTokens : (phrase.enclosed k).tokens = Text.tokens (Text.enclosed k source) := by
    rw [Phrase.tokens_enclosed, Text.tokens_enclosed, same]
  have read := parseExpression_of_phrase sameTokens (Phrase.maximal_enclosed maximal k)
    (Phrase.binds_enclosed binds k)
  rw [Phrase.nesting_enclosed, Phrase.tree_enclosed, ← nesting] at read
  exact read

theorem encloses_application :
    let source := "f(a /\\ (b))"
    let formula : Expression := .call "f" [.binary .and (.var "a") (.var "b")]
    (parseExpression source .standard).result = .ok formula ∧
      (countExpression source .standard).state.peak = 3 ∧
      (parseExpression (Text.enclosed 253 source) .standard).result = .ok formula ∧
      ∃ position, (parseExpression (Text.enclosed 254 source) .standard).result =
        .error ⟨position, .tooDeep 256⟩ := by
  intro source formula
  have parsed : (parseExpression source .standard).result = .ok formula := by decide +kernel
  have peak : (countExpression source .standard).state.peak = 3 := by decide +kernel
  obtain ⟨_, ⟨_, read⟩ | ⟨deep, _⟩⟩ := parseExpression_enclosed parsed 253
  · obtain ⟨_, ⟨fits, _⟩ | ⟨_, refused⟩⟩ := parseExpression_enclosed parsed 254
    · omega
    · exact ⟨parsed, peak, read, refused⟩
  · omega

end FormulaReader
