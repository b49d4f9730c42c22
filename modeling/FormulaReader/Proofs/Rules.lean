import FormulaReader.Proofs.Locality

/-!
The rules of the grammar over any way of reading. Parsers are one such way; others keep books on the
side. A relation between two ways of reading that their steps respect is respected by every rule.
-/

namespace FormulaReader

/-- The steps that the rules of the grammar are made of. -/
class Steps (m : Type → Type) extends Monad m where
  token : m Token
  advance : m Unit
  name? : m (Option String)
  fail {α : Type} (fault : Fault) : m α
  note (n : Note) : m Unit
  many {α β : Type} (lead : Token → Option β) (item : β → m α) : m (List α)
  many_eq {α β : Type} (lead : Token → Option β) (item : β → m α) :
    many lead item = token >>= fun t =>
      match lead t with
      | none => pure []
      | some b =>
          if t = .endOfInput then pure []
          else advance >>= fun _ => item b >>= fun a => many lead item >>= fun later =>
            pure (a :: later)

/-! ## The rules -/

namespace Rules

open Steps

variable {m : Type → Type} [Steps m]

def expect (expected : Token) (fault : Fault) : m Unit := do
  if (← token) = expected then advance else fail fault

def name (missing : Fault) : m String := do
  match ← name? with
  | some name => return name
  | none => fail missing

def group (inner : m Expression) : m Expression := do
  advance
  let expression ← inner
  expect (.symbol ')') .unclosedGroup
  return expression

def arguments (inner : m Expression) : m (List Expression) := do
  if (← token) = .symbol ')' then
    advance
    return []
  else
    let first ← inner
    let further ← many Parser.comma fun _ => inner
    expect (.symbol ')') .unclosedArguments
    return first :: further

def application (inner : m Expression) : m Expression := do
  match ← name? with
  | some name =>
      if (← token) = .symbol '(' then
        advance
        return .call name (← arguments inner)
      else
        return .var name
  | none => fail (.expectedExpression (← token))

def quantification (inner : m Expression) : m Expression := do
  match ← token with
  | .quantifier quantifier =>
      advance
      let variableName ← name .expectedBoundVariable
      expect (.symbol ',') .expectedBody
      return .quantified quantifier variableName (← inner)
  | found => fail (.expectedExpression found)

def operand (inner : m Expression) : m Expression := do
  match ← token with
  | .quantifier _ => quantification inner
  | .identifier _ => application inner
  | .symbol '(' => group inner
  | found => fail (.expectedExpression found)

def continuation (precedence : m Precedence) (operand : m Expression) (least : Int32)
    (left : Expression) : m Expression := do
  let table ← precedence
  let links ← many (Parser.connectiveFrom table least) fun kind => do
    return ⟨kind, ← operand⟩
  return Chain.tree table least left links

def chain (precedence : m Precedence) (operand : m Expression) : m Expression := do
  continuation precedence operand 0 (← operand)

def parameters : m (List String) := do
  match ← name? with
  | none => return []
  | some first =>
      let further ← many Parser.comma fun _ => name .expectedParameter
      return first :: further

def prototype : m Prototype := do
  let functionName ← name .expectedFunctionName
  expect (.symbol '(') .expectedParameters
  let parameterNames ← parameters
  expect (.symbol ')') .unclosedParameters
  let read : Prototype := ⟨functionName, parameterNames⟩
  note (.readPrototype read)
  return read

def definition (expression : m Expression) : m Definition := do
  advance
  let head ← prototype
  let body ← expression
  note (.readDefinition head.name)
  return ⟨head, body⟩

def whole {α : Type} (p : m α) : m α := do
  advance
  let value ← p
  match ← token with
  | .endOfInput => return value
  | found => fail (.unexpectedRest found)

end Rules

/-! ## Parsers -/

namespace Cursor

theorem size_advance_le_size (c : Cursor) : c.advance.size ≤ c.size :=
  Nat.le_trans c.size_advance_le c.length_ahead_le_size

theorem size_advance_lt_size {c : Cursor} (notEnd : c.token ≠ .endOfInput) :
    c.advance.size < c.size :=
  Nat.lt_of_le_of_lt c.size_advance_le (length_ahead_lt_size notEnd)

end Cursor

namespace Parser

instance : Steps Parser where
  token := token
  advance := advance
  name? := name?
  fail := fail
  note := note
  many := many
  many_eq lead item := by
    conv =>
      lhs
      rw [many_eq]
    refine bind_congr fun t => ?_
    cases lead t with
    | none => rfl
    | some b =>
        by_cases atEnd : t = .endOfInput
        · simp only [atEnd, if_true]
        · simp only [atEnd, if_false, afterNext, bind_assoc, map_eq_pure_bind]

variable {table : Precedence} {inner : Parser Expression}

theorem run_name?_bind {α : Type} (next : Option String → Parser α) (c : Cursor) :
    (name? >>= next).run c =
      match c.token with
      | .identifier x => (advance >>= fun _ => next (some x)).run c
      | _ => (next none).run c := by
  rw [name?, bind_assoc, run_token_bind]
  cases c.token with
  | identifier x => rw [bind_assoc]; rfl
  | _ => rfl

theorem rules_application : Rules.application inner = application inner := by
  apply eq_of_run
  funext c
  refine (run_name?_bind _ c).trans ?_
  refine Eq.trans ?_ (run_token_bind _ c).symm
  cases found : c.token with
  | identifier x => rfl
  | _ => exact (run_token_bind _ c).trans (by rw [found]; rfl)

theorem rules_operand : Rules.operand inner = operand inner := by
  rw [Rules.operand, rules_application]
  rfl

theorem rules_continuation (least : Int32) (left : Expression) :
    Rules.continuation (pure table) inner least left = continuation table inner least left := by
  rw [Rules.continuation, pure_bind]
  rfl

theorem rules_chain : Rules.chain (pure table) inner = chain table inner :=
  bind_congr fun left => rules_continuation 0 left

theorem rules_whole {α : Type} (p : Parser α) : Rules.whole p = whole p := by
  rw [whole, afterNext, bind_assoc]
  rfl

end Parser

/-! ## Relations that the steps respect -/

/-- Relations between what two ways of reading do at a place, where there is a token, and some number
of lexemes are left. What begins with a step is related by `S` if that step leaves things related by
`R`. A fault that quotes a token quotes the one at the place. -/
structure Steps.Opening {m n : Type → Type} [Steps m] [Steps n] {σ : Type} (token : σ → Token)
    (size : σ → Nat) (R S : (α : Type) → m α → n α → σ → Prop) : Prop where
  token_bind {α : Type} {next : Token → m α} {further : Token → n α} {s : σ} :
    S α (next (token s)) (further (token s)) s →
      S α (Steps.token >>= next) (Steps.token >>= further) s
  advance_bind {α : Type} {next : Unit → m α} {further : Unit → n α} {s : σ} :
    (∀ t, size t ≤ size s → (token s ≠ .endOfInput → size t < size s) →
      R α (next ()) (further ()) t) →
      S α (Steps.advance >>= next) (Steps.advance >>= further) s
  name?_bind {α : Type} {next : Option String → m α} {further : Option String → n α} {s : σ} :
    (∀ x t, size t < size s → R α (next (some x)) (further (some x)) t) →
      S α (next none) (further none) s →
      S α (Steps.name? >>= next) (Steps.name? >>= further) s
  fail {α : Type} {fault : Fault} {s : σ} :
    fault.foundAt (token s) = fault → S α (Steps.fail fault) (Steps.fail fault) s

/-- A relation that all the steps of the rules keep. -/
structure Steps.Congruence {m n : Type → Type} [Steps m] [Steps n] {σ : Type} (token : σ → Token)
    (size : σ → Nat) (R : (α : Type) → m α → n α → σ → Prop) : Prop
    extends Steps.Opening token size R R where
  pure {α : Type} (a : α) (s : σ) : R α (pure a) (pure a) s
  bind {α β : Type} {p : m α} {q : n α} {next : α → m β} {further : α → n β} {s : σ} :
    R α p q s → (∀ a t, size t ≤ size s → R β (next a) (further a) t) →
      R β (p >>= next) (q >>= further) s
  advance (s : σ) : R Unit Steps.advance Steps.advance s
  note (x : Note) (s : σ) : R Unit (Steps.note x) (Steps.note x) s

namespace Steps

variable {m n : Type → Type} [Steps m] [Steps n] {σ : Type} {token : σ → Token} {size : σ → Nat}
  {R S : (α : Type) → m α → n α → σ → Prop} {s : σ}
  {inner : m Expression} {outer : n Expression}

namespace Congruence

theorem many (kept : Congruence token size R) {α β : Type} {lead : Token → Option β}
    {item : β → m α} {other : β → n α}
    (items : ∀ b t, size t < size s → R α (item b) (other b) t) :
    R (List α) (Steps.many lead item) (Steps.many lead other) s := by
  induction left : size s using Nat.strongRecOn generalizing s with
  | ind k ih =>
      rw [Steps.many_eq lead item, Steps.many_eq lead other]
      apply kept.token_bind
      cases lead (token s) with
      | none => exact kept.pure [] s
      | some b =>
          by_cases atEnd : token s = .endOfInput
          · simp only [atEnd, if_true]
            exact kept.pure [] s
          · simp only [atEnd, if_false]
            apply kept.advance_bind
            intro t _ shorter
            have fewer : size t < size s := shorter atEnd
            apply kept.bind (items b t fewer)
            intro a u further
            have fewest : size u < size s := Nat.lt_of_le_of_lt further fewer
            have rest : ∀ b v, size v < size u → R α (item b) (other b) v := fun b v less =>
              items b v (Nat.lt_trans less fewest)
            apply kept.bind (ih (size u) (left ▸ fewest) rest rfl)
            intro later v _
            exact kept.pure (a :: later) v

theorem expect (kept : Congruence token size R) {expected : Token} {fault : Fault}
    (quotesNone : ∀ t, fault.foundAt t = fault) :
    R Unit (Rules.expect expected fault) (Rules.expect expected fault) s := by
  apply kept.token_bind
  by_cases found : token s = expected
  · rw [if_pos found, if_pos found]
    exact kept.advance s
  · rw [if_neg found, if_neg found]
    exact kept.fail (quotesNone (token s))

theorem name (kept : Congruence token size R) {missing : Fault}
    (quotesNone : ∀ t, missing.foundAt t = missing) :
    R String (Rules.name missing) (Rules.name missing) s := by
  apply kept.name?_bind
  · intro x t _
    exact kept.pure x t
  · exact kept.fail (quotesNone (token s))

theorem arguments (kept : Congruence token size R)
    (inside : ∀ t, size t ≤ size s → R Expression inner outer t) :
    R (List Expression) (Rules.arguments inner) (Rules.arguments outer) s := by
  apply kept.token_bind
  by_cases closes : token s = .symbol ')'
  · rw [if_pos closes, if_pos closes]
    apply kept.advance_bind
    intro t _ _
    exact kept.pure [] t
  · rw [if_neg closes, if_neg closes]
    apply kept.bind (inside s (Nat.le_refl _))
    intro first t shorter
    apply kept.bind
    · apply kept.many
      intro _ u fewer
      exact inside u (Nat.le_trans (Nat.le_of_lt fewer) shorter)
    · intro further u _
      apply kept.bind (kept.expect fun _ => rfl)
      intro _ v _
      exact kept.pure (first :: further) v

end Congruence

/-! What a primary begins with is a step. -/

namespace Opening

theorem group (opening : Opening token size R S)
    (kept : Congruence token size R)
    (inside : ∀ t, (token s ≠ .endOfInput → size t < size s) → R Expression inner outer t) :
    S Expression (Rules.group inner) (Rules.group outer) s := by
  apply opening.advance_bind
  intro t _ shorter
  apply kept.bind (inside t shorter)
  intro e u _
  apply kept.bind (kept.expect fun _ => rfl)
  intro _ v _
  exact kept.pure e v

theorem application (opening : Opening token size R S)
    (kept : Congruence token size R)
    (inside : ∀ t, size t < size s → R Expression inner outer t) :
    S Expression (Rules.application inner) (Rules.application outer) s := by
  apply opening.name?_bind
  · intro x t shorter
    apply kept.token_bind
    by_cases opens : token t = .symbol '('
    · rw [if_pos opens, if_pos opens]
      apply kept.advance_bind
      intro u further _
      apply kept.bind
      · apply kept.arguments
        intro v furthest
        exact inside v (Nat.lt_of_le_of_lt (Nat.le_trans furthest further) shorter)
      · intro es v _
        exact kept.pure (Expression.call x es) v
    · rw [if_neg opens, if_neg opens]
      exact kept.pure (Expression.var x) t
  · apply opening.token_bind
    exact opening.fail rfl

theorem quantification (opening : Opening token size R S)
    (kept : Congruence token size R)
    (inside : ∀ t, size t < size s → R Expression inner outer t) :
    S Expression (Rules.quantification inner) (Rules.quantification outer) s := by
  apply opening.token_bind
  cases found : token s with
  | quantifier kind =>
      apply opening.advance_bind
      intro t _ shorter
      have fewer : size t < size s := shorter (by simp [found])
      apply kept.bind (kept.name fun _ => rfl)
      intro x u further
      apply kept.bind (kept.expect fun _ => rfl)
      intro _ v furthest
      have fewest : size v < size s :=
        Nat.lt_of_le_of_lt (Nat.le_trans furthest further) fewer
      apply kept.bind (inside v fewest)
      intro body w _
      exact kept.pure (Expression.quantified kind x body) w
  | _ => exact opening.fail (by rw [found]; rfl)

theorem operand (opening : Opening token size R S)
    (kept : Congruence token size R)
    (inside : ∀ t, size t < size s → R Expression inner outer t) :
    S Expression (Rules.operand inner) (Rules.operand outer) s := by
  apply opening.token_bind
  split
  · exact opening.quantification kept inside
  · exact opening.application kept inside
  · next opens => exact opening.group kept fun t shorter => inside t (shorter (by simp [opens]))
  · exact opening.fail rfl

end Opening

namespace Congruence

theorem group (kept : Congruence token size R)
    (inside : ∀ t, (token s ≠ .endOfInput → size t < size s) → R Expression inner outer t) :
    R Expression (Rules.group inner) (Rules.group outer) s :=
  kept.toOpening.group kept inside

theorem application (kept : Congruence token size R)
    (inside : ∀ t, size t < size s → R Expression inner outer t) :
    R Expression (Rules.application inner) (Rules.application outer) s :=
  kept.toOpening.application kept inside

theorem quantification (kept : Congruence token size R)
    (inside : ∀ t, size t < size s → R Expression inner outer t) :
    R Expression (Rules.quantification inner) (Rules.quantification outer) s :=
  kept.toOpening.quantification kept inside

theorem operand (kept : Congruence token size R)
    (inside : ∀ t, size t < size s → R Expression inner outer t) :
    R Expression (Rules.operand inner) (Rules.operand outer) s :=
  kept.toOpening.operand kept inside

variable {precedence : m Precedence} {other : n Precedence}

theorem continuation (kept : Congruence token size R)
    (tables : ∀ t, R Precedence precedence other t)
    (inside : ∀ t, size t < size s → R Expression inner outer t) (least : Int32)
    (left : Expression) :
    R Expression (Rules.continuation precedence inner least left)
      (Rules.continuation other outer least left) s := by
  apply kept.bind (tables s)
  intro table t shorter
  apply kept.bind
  · apply kept.many
    intro kind u fewer
    apply kept.bind (inside u (Nat.lt_of_lt_of_le fewer shorter))
    intro e v _
    exact kept.pure (Link.mk kind e) v
  · intro links u _
    exact kept.pure (Chain.tree table least left links) u

theorem chain (kept : Congruence token size R)
    (tables : ∀ t, R Precedence precedence other t)
    (inside : ∀ t, size t ≤ size s → R Expression inner outer t) :
    R Expression (Rules.chain precedence inner) (Rules.chain other outer) s := by
  apply kept.bind (inside s (Nat.le_refl _))
  intro left t shorter
  apply kept.continuation tables
  intro u fewer
  exact inside u (Nat.le_trans (Nat.le_of_lt fewer) shorter)

theorem parameters (kept : Congruence token size R) :
    R (List String) Rules.parameters Rules.parameters s := by
  apply kept.name?_bind
  · intro first t _
    apply kept.bind (kept.many fun _ _ _ => kept.name fun _ => rfl)
    intro further u _
    exact kept.pure (first :: further) u
  · exact kept.pure [] s

theorem prototype (kept : Congruence token size R) :
    R Prototype Rules.prototype Rules.prototype s := by
  apply kept.bind (kept.name fun _ => rfl)
  intro x t _
  apply kept.bind (kept.expect fun _ => rfl)
  intro _ u _
  apply kept.bind kept.parameters
  intro parameters v _
  apply kept.bind (kept.expect fun _ => rfl)
  intro _ w _
  apply kept.bind (kept.note _ w)
  intro _ y _
  exact kept.pure (Prototype.mk x parameters) y

theorem definition (kept : Congruence token size R) (bodies : ∀ t, R Expression inner outer t) :
    R Definition (Rules.definition inner) (Rules.definition outer) s := by
  apply kept.advance_bind
  intro t _ _
  apply kept.bind kept.prototype
  intro head u _
  apply kept.bind (bodies u)
  intro body v _
  apply kept.bind (kept.note _ v)
  intro _ w _
  exact kept.pure (Definition.mk head body) w

theorem whole (kept : Congruence token size R) {α : Type} {p : m α} {q : n α}
    (inside : ∀ t, R α p q t) :
    R α (Rules.whole p) (Rules.whole q) s := by
  apply kept.advance_bind
  intro t _ _
  apply kept.bind (inside t)
  intro a u _
  apply kept.token_bind
  cases found : token u with
  | endOfInput => exact kept.pure a u
  | _ => exact kept.fail (by rw [found]; rfl)

end Congruence

end Steps

end FormulaReader
