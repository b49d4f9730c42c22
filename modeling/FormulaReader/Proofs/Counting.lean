import FormulaReader.Proofs.Rules

/-!
Counting: parsers that keep books on the primaries they are in. The number of open primaries is
raised where a primary is entered and lowered where it is left, a name is taken out of the current
token in place, and the table is looked up in the state. The guard on nesting compares the number
with the limit; without it the parser goes on to any depth.
-/

namespace FormulaReader

/-- A primary that was entered: how many others were open, and the lexeme under the cursor. -/
structure Entrance where
  opened : Nat
  lexeme : Lexeme
deriving DecidableEq

/-- The state of a parser that counts. -/
structure Tally where
  cursor : Cursor
  table : Precedence
  /-- How many primaries have been entered and not been left. -/
  opened : Nat
  /-- The primaries entered so far, for the record only. -/
  entrances : List Entrance
deriving DecidableEq

namespace Tally

/-- In front of all that a source of characters gives. -/
def start (feed : Feed) (table : Precedence) : Tally :=
  ⟨.ofFeed feed, table, 0, []⟩

def token (t : Tally) : Token :=
  t.cursor.token

def size (t : Tally) : Nat :=
  t.cursor.size

/-- One lexeme on. -/
def advance (t : Tally) : Tally :=
  { t with cursor := t.cursor.advance }

/-- One primary more has been entered. -/
def enter (t : Tally) : Tally :=
  { t with opened := t.opened + 1, entrances := t.entrances ++ [⟨t.opened, t.cursor.current⟩] }

/-- The last one has been left. -/
def leave (t : Tally) : Tally :=
  { t with opened := t.opened - 1 }

end Tally

namespace Cursor

/-- The cursor with the name taken out of its token. -/
def blank (c : Cursor) : Cursor :=
  { c with current := { c.current with token := .identifier "" } }

@[simp] theorem advance_blank (c : Cursor) : c.blank.advance = c.advance := by
  cases shape : c.ahead <;> simp [advance, blank, shape, Lexeme.endAfter]

end Cursor

structure Counter (α : Type) where
  run : Activity ParseError Tally α
  path : ∀ t : Tally, t.cursor.Path (run t).events (run t).state.cursor

namespace Counter

variable {α β : Type}

theorem path_andThen
    {c : Cursor}
    {o : Outcome ParseError Tally α}
    {next : α → Counter β}
    (path : c.Path o.events o.state.cursor) :
    c.Path (Activity.andThen o fun a => (next a).run).events
      (Activity.andThen o fun a => (next a).run).state.cursor := by
  cases o with
  | mk result state events =>
      cases result with
      | error e => exact path
      | ok a => exact path.trans ((next a).path state)

instance : Monad Counter where
  pure a := ⟨pure a, fun _ => .stay⟩
  bind p next := ⟨p.run >>= fun a => (next a).run, fun t => path_andThen (p.path t)⟩
  map f p := ⟨f <$> p.run, p.path⟩

theorem eq_of_run {p q : Counter α} (same : p.run = q.run) : p = q := by
  cases p
  cases q
  congr

instance : LawfulMonad Counter :=
  LawfulMonad.mk' Counter
    (fun p => eq_of_run (id_map p.run))
    (fun a next => eq_of_run (pure_bind a fun b => (next b).run))
    (fun p next further =>
      eq_of_run (bind_assoc p.run (fun a => (next a).run) fun b => (further b).run))
    (fun _ _ => rfl) (fun _ _ => rfl) (fun _ _ => rfl)
    (fun f p => eq_of_run (bind_pure_comp f p.run))

theorem run_bind (p : Counter α) (next : α → Counter β) (t : Tally) :
    (p >>= next).run t = Activity.andThen (p.run t) fun a => (next a).run := rfl

/-- What a parser does, without any entry in the books. -/
def lift (p : Parser α) : Counter α where
  run t :=
    let plain := p.run t.cursor
    ⟨plain.result, { t with cursor := plain.state }, plain.events⟩
  path t := p.path t.cursor

/-- The table in the state. -/
def table : Counter Precedence :=
  ⟨fun t => ⟨.ok t.table, t, []⟩, fun _ => .stay⟩

/-- The name under the cursor, taken out of the token and then read over. -/
def name? : Counter (Option String) where
  run t :=
    match t.token with
    | .identifier x =>
        let left := t.cursor.blank.advance
        ⟨.ok (some x), { t with cursor := left }, [.read left.current]⟩
    | _ => ⟨.ok none, t, []⟩
  path t := by
    split
    · rw [t.cursor.advance_blank]
      exact .advance .stay
    · exact .stay

theorem run_name? (t : Tally) :
    (∃ x, t.token = .identifier x ∧ t.advance.size < t.size ∧
        name?.run t = ⟨.ok (some x), t.advance, [.read t.advance.cursor.current]⟩) ∨
      (∀ x, t.token ≠ .identifier x) ∧ name?.run t = ⟨.ok none, t, []⟩ := by
  cases found : t.token with
  | identifier x =>
      have notEnd : t.cursor.token ≠ .endOfInput := by
        intro atEnd
        cases found.symm.trans atEnd
      exact .inl ⟨x, rfl, Cursor.size_advance_lt_size notEnd, by simp [name?, found, Tally.advance]⟩
  | _ => exact .inr ⟨by simp, by simp [name?, found]⟩

theorem size_advance_bind_lt (p : Counter α) {t : Tally} (notEnd : t.token ≠ .endOfInput) :
    ((lift Parser.advance >>= fun _ => p).run t).state.cursor.size < t.cursor.size := by
  have rest := (p.path t.advance).size_le
  exact Nat.lt_of_le_of_lt rest (Cursor.size_advance_lt_size notEnd)

def manyFrom (lead : Token → Option β) (item : β → Counter α) (t : Tally) :
    Outcome ParseError Tally (List α) :=
  match lead t.token with
  | none => ⟨.ok [], t, []⟩
  | some b =>
      if t.token = .endOfInput then ⟨.ok [], t, []⟩
      else
        let first := (lift Parser.advance >>= fun _ => item b).run t
        match first.result with
        | .error e => ⟨.error e, first.state, first.events⟩
        | .ok a => ((manyFrom lead item first.state).map (a :: ·)).after first.events
termination_by t.cursor.size
decreasing_by exact size_advance_bind_lt (item b) ‹_›

theorem path_manyFrom (lead : Token → Option β) (item : β → Counter α) (t : Tally) :
    t.cursor.Path (manyFrom lead item t).events (manyFrom lead item t).state.cursor := by
  fun_induction manyFrom lead item t with
  | case1 => exact .stay
  | case2 => exact .stay
  | case3 t b _ _ first e failed => exact (lift Parser.advance >>= fun _ => item b).path t
  | case4 t b _ _ first a read ih =>
      exact ((lift Parser.advance >>= fun _ => item b).path t).trans ih

theorem run_token_bind (next : Token → Counter α) (t : Tally) :
    (lift Parser.token >>= next).run t = (next t.token).run t :=
  Outcome.after_nil _

instance : Steps Counter where
  token := lift Parser.token
  advance := lift Parser.advance
  name? := name?
  fail fault := lift (Parser.fail fault)
  note x := lift (Parser.note x)
  many lead item := ⟨manyFrom lead item, path_manyFrom lead item⟩
  many_eq lead item := by
    apply eq_of_run
    funext t
    rw [run_token_bind]
    have unfolded := manyFrom.eq_1 lead item t
    refine unfolded.trans ?_
    cases lead t.token with
    | none => rfl
    | some b =>
        by_cases atEnd : t.token = .endOfInput
        · simp only [atEnd, if_true]
          rfl
        · simp only [atEnd, if_false, bind_pure_comp]
          rw [← bind_assoc]
          refine Eq.trans ?_ (run_bind _ _ t).symm
          generalize (lift Parser.advance >>= fun _ => item b).run t = first
          cases first with
          | mk result m events => cases result <;> rfl

/-- A primary under the guard, if it is on: entered, read with `p` and left again, whether `p` fails
or not. -/
def enter (guarded : Bool) (p : Counter α) : Counter α where
  run t :=
    if guarded = true ∧ Parser.nestingLimit ≤ t.opened then
      ⟨.error ⟨t.cursor.position, .tooDeep Parser.nestingLimit⟩, t, []⟩
    else
      let inside := p.run t.enter
      ⟨inside.result, inside.state.leave, inside.events⟩
  path t := by
    split
    · exact .stay
    · exact p.path t.enter

theorem run_enter_of_stops {guarded : Bool} (p : Counter α) {t : Tally}
    (stops : guarded = true ∧ Parser.nestingLimit ≤ t.opened) :
    (enter guarded p).run t =
      ⟨.error ⟨t.cursor.position, .tooDeep Parser.nestingLimit⟩, t, []⟩ :=
  if_pos stops

theorem run_enter_of_passes {guarded : Bool} (p : Counter α) {t : Tally}
    (passes : ¬ (guarded = true ∧ Parser.nestingLimit ≤ t.opened)) :
    (enter guarded p).run t =
      ⟨(p.run t.enter).result, (p.run t.enter).state.leave, (p.run t.enter).events⟩ :=
  if_neg passes

/-- A primary with `depth` primaries in it. -/
def primaryUpTo (guarded : Bool) : Nat → Counter Expression
  | 0 => lift (Parser.fail (.tooDeep Parser.nestingLimit))
  | depth + 1 => enter guarded (Rules.operand (Rules.chain table (primaryUpTo guarded depth)))

/-- A primary. It cannot have more primaries in one another than there are lexemes left. -/
def primary (guarded : Bool) : Counter Expression where
  run t := (primaryUpTo guarded (t.size + 1)).run t
  path t := (primaryUpTo guarded (t.size + 1)).path t

def expression (guarded : Bool) : Counter Expression :=
  Rules.chain table (primary guarded)

def definition (guarded : Bool) : Counter Definition :=
  Rules.definition (expression guarded)

/-! ## The recursion -/

section Recursion

variable {guarded : Bool} {p q : Counter Expression} {t : Tally}

theorem run_congruence :
    Steps.Congruence Tally.token Tally.size fun α (p q : Counter α) t => p.run t = q.run t where
  pure _ _ := rfl
  bind := by
    intro _ _ p q next further t first second
    rw [run_bind, run_bind, ← first]
    have shorter := (p.path t).size_le
    cases shape : p.run t with
    | mk result m events =>
        rw [shape] at shorter
        cases result with
        | error e => rfl
        | ok a => exact congrArg (Outcome.after events) (second a m shorter)
  token_bind := by
    intro _ next further t rest
    exact (run_token_bind next t).trans (rest.trans (run_token_bind further t).symm)
  advance _ := rfl
  advance_bind := by
    intro _ next further t rest
    have moved := rest t.advance t.cursor.size_advance_le_size Cursor.size_advance_lt_size
    exact congrArg (Outcome.after _) moved
  name?_bind := by
    intro _ next further t named unnamed
    refine (run_bind name? next t).trans (Eq.trans ?_ (run_bind name? further t).symm)
    rcases run_name? t with ⟨x, _, smaller, taken⟩ | ⟨_, taken⟩
    · rw [taken]
      exact congrArg (Outcome.after _) (named x t.advance smaller)
    · rw [taken]
      exact congrArg (Outcome.after _) unnamed
  fail _ := rfl
  note _ _ := rfl

theorem run_enter (inside : p.run t.enter = q.run t.enter) :
    (enter guarded p).run t = (enter guarded q).run t := by
  simp only [enter, inside]

theorem run_operand_chain (inside : ∀ u, u.size < t.size → p.run u = q.run u) :
    (Rules.operand (Rules.chain table p)).run t = (Rules.operand (Rules.chain table q)).run t := by
  apply run_congruence.operand
  intro u smaller
  apply run_congruence.chain fun _ => rfl
  intro v further
  exact inside v (Nat.lt_of_le_of_lt further smaller)

/-- Bounds on nesting make no difference where they are more than the number of lexemes left. -/
theorem run_primaryUpTo {depth more : Nat} (enough : t.size < depth) (alsoEnough : t.size < more) :
    (primaryUpTo guarded depth).run t = (primaryUpTo guarded more).run t := by
  induction depth generalizing t more with
  | zero => cases enough
  | succ depth ih =>
      cases more with
      | zero => cases alsoEnough
      | succ more =>
          apply run_enter
          apply run_operand_chain
          intro u smaller
          have fewer : u.size < t.size := smaller
          exact ih (by omega) (by omega)

/-- The recursion of the grammar: a primary consists of chains of primaries. -/
theorem primary_eq (guarded : Bool) :
    primary guarded = enter guarded (Rules.operand (Rules.chain table (primary guarded))) := by
  apply eq_of_run
  funext t
  apply run_enter
  apply run_operand_chain
  intro u smaller
  exact run_primaryUpTo smaller (Nat.lt_succ_self _)

/-- The recursion determines the parser. -/
theorem eq_primary_iff :
    p = enter guarded (Rules.operand (Rules.chain table p)) ↔ p = primary guarded := by
  constructor
  · intro recursive
    apply eq_of_run
    funext t
    induction size : t.size using Nat.strongRecOn generalizing t with
    | ind k ih =>
        rw [recursive, primary_eq guarded]
        apply run_enter
        apply run_operand_chain
        intro u smaller
        exact ih u.size (size ▸ smaller) u rfl
  · intro same
    rw [same]
    exact primary_eq guarded

end Recursion

end Counter

/-! ## Beside the parser of the grammar -/

/-- The first of the primaries entered that the guard would not let through. -/
def Entrance.stop? (entered : List Entrance) : Option Entrance :=
  entered.find? fun e => Parser.nestingLimit ≤ e.opened

theorem Entrance.stop?_eq_none_iff {entered : List Entrance} :
    stop? entered = none ↔ ∀ e ∈ entered, e.opened < 256 := by
  rw [stop?, List.find?_eq_none]
  constructor
  · intro passed e member
    exact Nat.not_le.mp fun deep => passed e member (decide_eq_true deep)
  · intro shallow e member stops
    exact Nat.not_le.mpr (shallow e member) (of_decide_eq_true stops)

theorem Entrance.stop?_append (entered later : List Entrance) :
    stop? (entered ++ later) = (stop? entered).or (stop? later) :=
  List.find?_append

theorem Entrance.stop?_cons_of_le {e : Entrance} (later : List Entrance)
    (full : Parser.nestingLimit ≤ e.opened) :
    stop? (e :: later) = some e := by
  simp [stop?, full]

theorem Entrance.stop?_cons_of_not_le {e : Entrance} (later : List Entrance)
    (roomy : ¬ Parser.nestingLimit ≤ e.opened) :
    stop? (e :: later) = stop? later := by
  simp [stop?, roomy]

/-- From `t` on the books have been kept, with `entered` as the primaries entered on the way, and an
error is raised at the token under the cursor. What was done is what the plain parser did, but the
plain one stopped at the first primary that the guard would not let through. -/
structure Tally.Follows {α : Type} (t : Tally) (o : Outcome ParseError Tally α)
    (plain : Outcome ParseError Cursor α) (entered : List Entrance) : Prop where
  opened : o.state.opened = t.opened
  table : o.state.table = t.table
  entrances : o.state.entrances = t.entrances ++ entered
  raised : ∀ e, o.result = .error e → e = o.state.cursor.raise e.fault
  alike : Entrance.stop? entered = none →
    o.result = plain.result ∧ o.state.cursor = plain.state ∧ o.events = plain.events
  stopped : ∀ e, Entrance.stop? entered = some e →
    e.opened = max t.opened Parser.nestingLimit ∧
      plain.result = .error ⟨e.lexeme.start, .tooDeep Parser.nestingLimit⟩

namespace Tally.Follows

variable {α β : Type} {t m : Tally} {entered later : List Entrance} {events : List Event}
  {inside : Outcome ParseError Tally α} {plain : Outcome ParseError Cursor α}
  {further : α → Parser β}

/-- A failure ends both. -/
theorem error {e : ParseError}
    (follows : t.Follows (⟨.error e, m, events⟩ : Outcome ParseError Tally α) plain entered) :
    t.Follows (⟨.error e, m, events⟩ : Outcome ParseError Tally β)
      (Activity.andThen plain fun a => (further a).run) entered where
  opened := follows.opened
  table := follows.table
  entrances := follows.entrances
  raised f failed := follows.raised f (congrArg Except.error (Except.error.inj failed))
  alike none := by
    cases plain with
    | mk result c written =>
        obtain ⟨rfl, same, sameEvents⟩ := follows.alike none
        exact ⟨rfl, same, sameEvents⟩
  stopped stop found := by
    cases plain with
    | mk result c written =>
        obtain ⟨level, rfl⟩ := follows.stopped stop found
        exact ⟨level, rfl⟩

/-- Both go on, unless the plain one has stopped. -/
theorem append {a : α} {o : Outcome ParseError Tally β}
    (first : t.Follows (⟨.ok a, m, events⟩ : Outcome ParseError Tally α) plain entered)
    (second : m.Follows o ((further a).run m.cursor) later) :
    t.Follows (o.after events) (Activity.andThen plain fun a => (further a).run)
      (entered ++ later) where
  opened := second.opened.trans first.opened
  table := second.table.trans first.table
  entrances := by
    have earlier : m.entrances = t.entrances ++ entered := first.entrances
    rw [Outcome.state_after, second.entrances, earlier, List.append_assoc]
  raised := second.raised
  alike none := by
    rw [Entrance.stop?_append, Option.or_eq_none_iff] at none
    cases plain with
    | mk result c written =>
        obtain ⟨rfl, rfl, rfl⟩ := first.alike none.1
        obtain ⟨sameResult, sameCursor, sameEvents⟩ := second.alike none.2
        exact ⟨sameResult, sameCursor, congrArg (events ++ ·) sameEvents⟩
  stopped stop found := by
    rw [Entrance.stop?_append] at found
    cases plain with
    | mk result c written =>
        cases inFirst : Entrance.stop? entered with
        | some e =>
            rw [inFirst, Option.some_or] at found
            cases found
            obtain ⟨level, rfl⟩ := first.stopped stop inFirst
            exact ⟨level, rfl⟩
        | none =>
            rw [inFirst, Option.none_or] at found
            obtain ⟨rfl, rfl, rfl⟩ := first.alike inFirst
            obtain ⟨level, failed⟩ := second.stopped stop found
            have sameLevel : m.opened = t.opened := first.opened
            rw [sameLevel] at level
            exact ⟨level, failed⟩

/-- What is done inside of a primary is done in the outer one too. -/
theorem leave (follows : t.enter.Follows inside plain entered)
    (roomy : ¬ Parser.nestingLimit ≤ t.opened) :
    t.Follows ⟨inside.result, inside.state.leave, inside.events⟩ plain
      (⟨t.opened, t.cursor.current⟩ :: entered) where
  opened := Nat.sub_eq_of_eq_add follows.opened
  table := follows.table
  entrances := follows.entrances.trans (List.append_cons _ _ _).symm
  raised := follows.raised
  alike := by
    rw [Entrance.stop?_cons_of_not_le entered roomy]
    exact follows.alike
  stopped := by
    rw [Entrance.stop?_cons_of_not_le entered roomy]
    intro e found
    obtain ⟨level, failed⟩ := follows.stopped e found
    have deeper : t.enter.opened = t.opened + 1 := rfl
    exact ⟨by omega, failed⟩

/-- Where no more primaries may be opened the plain parser stops, whatever is done inside. -/
theorem leave_full (follows : t.enter.Follows inside plain entered)
    (full : Parser.nestingLimit ≤ t.opened) :
    t.Follows ⟨inside.result, inside.state.leave, inside.events⟩
      ((Parser.fail (.tooDeep Parser.nestingLimit) : Parser α).run t.cursor)
      (⟨t.opened, t.cursor.current⟩ :: entered) where
  opened := Nat.sub_eq_of_eq_add follows.opened
  table := follows.table
  entrances := follows.entrances.trans (List.append_cons _ _ _).symm
  raised := follows.raised
  alike := by
    rw [Entrance.stop?_cons_of_le entered full]
    intro impossible
    cases impossible
  stopped := by
    rw [Entrance.stop?_cons_of_le entered full]
    intro e found
    cases found
    exact ⟨(Nat.max_eq_left full).symm, rfl⟩

end Tally.Follows

namespace Counter

variable {α β : Type} {guarded : Bool} {opened : Nat} {table : Precedence} {t : Tally}

/-- In a state with `opened` open primaries and with the table, `p` follows the plain parser, and if
there is a guard, it has let every primary through that was entered. -/
def FollowsAt (guarded : Bool) (opened : Nat) (table : Precedence) (p : Counter α)
    (plain : Parser α) (t : Tally) : Prop :=
  t.opened = opened → t.table = table →
    ∃ entered, t.Follows (p.run t) (plain.run t.cursor) entered ∧
      (guarded = true → Entrance.stop? entered = none)

theorem followsAt_lift {p : Parser α}
    (raised : ∀ e, (p.run t.cursor).result = .error e → e = (p.run t.cursor).state.raise e.fault) :
    FollowsAt guarded opened table (lift p) p t := by
  intro _ _
  refine ⟨[], ⟨rfl, rfl, (List.append_nil _).symm, raised, fun _ => ⟨rfl, rfl, rfl⟩, ?_⟩,
    fun _ => rfl⟩
  intro e found
  cases found

theorem followsAt_lift_of_ok {p : Parser α} (succeeds : ∃ a, (p.run t.cursor).result = .ok a) :
    FollowsAt guarded opened table (lift p) p t := by
  apply followsAt_lift
  intro e failed
  obtain ⟨a, succeeded⟩ := succeeds
  cases succeeded.symm.trans failed

theorem followsAt_fail {fault : Fault} (quotes : fault.foundAt t.token = fault) :
    FollowsAt guarded opened table (lift (Parser.fail fault) : Counter α) (Parser.fail fault)
      t := by
  apply followsAt_lift
  intro e failed
  cases failed
  have found : fault.foundAt t.cursor.token = fault := quotes
  simp [Cursor.raise, Parser.fail, found]

theorem FollowsAt.bind {p : Counter α} {plain : Parser α} {next : α → Counter β}
    {further : α → Parser β}
    (first : FollowsAt guarded opened table p plain t)
    (second : ∀ a m, (p.run t).result = .ok a → (p.run t).state = m →
      FollowsAt guarded opened table (next a) (further a) m) :
    FollowsAt guarded opened table (p >>= next) (plain >>= further) t := by
  intro isOpened isTable
  obtain ⟨entered, follows, through⟩ := first isOpened isTable
  rw [run_bind, Parser.run_bind, Activity.bind_apply]
  cases shape : p.run t with
  | mk result m events =>
      rw [shape] at follows second
      cases result with
      | error e => exact ⟨entered, follows.error, through⟩
      | ok a =>
          obtain ⟨later, rest, alsoThrough⟩ := second a m rfl rfl
            (follows.opened.trans isOpened) (follows.table.trans isTable)
          refine ⟨entered ++ later, follows.append rest, ?_⟩
          intro on
          rw [Entrance.stop?_append, through on, alsoThrough on]
          rfl

theorem followsAt_name? (t : Tally) : FollowsAt guarded opened table name? Parser.name? t := by
  have same : name?.run t = (lift Parser.name?).run t := by
    have plain := Parser.run_name?_bind pure t.cursor
    rw [bind_pure] at plain
    simp only [lift, plain]
    rcases run_name? t with ⟨x, isName, _, taken⟩ | ⟨isOther, taken⟩
    · have found : t.cursor.token = .identifier x := isName
      rw [taken, found]
      rfl
    · rw [taken]
      cases found : t.cursor.token with
      | identifier x => exact absurd found (isOther x)
      | _ => rfl
  intro isOpened isTable
  rw [same]
  apply followsAt_lift_of_ok _ isOpened isTable
  have alike := congrArg Outcome.result same
  rcases run_name? t with ⟨x, _, _, taken⟩ | ⟨_, taken⟩
  · exact ⟨some x, alike.symm.trans (congrArg Outcome.result taken)⟩
  · exact ⟨none, alike.symm.trans (congrArg Outcome.result taken)⟩

theorem followsAt_table (t : Tally) :
    FollowsAt guarded opened table Counter.table (pure table) t := by
  intro isOpened isTable
  have same : Counter.table.run t = (lift (pure table)).run t := by
    rw [← isTable]
    rfl
  rw [same]
  exact followsAt_lift_of_ok ⟨table, rfl⟩ isOpened isTable

theorem followsAt_congruence (guarded : Bool) (opened : Nat) (table : Precedence) :
    Steps.Congruence Tally.token Tally.size
      fun α (p : Counter α) (q : Parser α) t => FollowsAt guarded opened table p q t where
  pure a t := @followsAt_lift_of_ok _ guarded opened table t (pure a) ⟨a, rfl⟩
  bind := by
    intro _ _ p _ _ _ t first second
    apply first.bind
    intro a m _ reached
    exact second a m (reached ▸ (p.path t).size_le)
  token_bind := by
    intro _ next further t rest
    have looked : FollowsAt guarded opened table (lift Parser.token) Parser.token t :=
      followsAt_lift_of_ok ⟨_, rfl⟩
    apply looked.bind
    intro found m looked reached
    cases looked
    cases reached
    exact rest
  advance t := followsAt_lift_of_ok ⟨(), rfl⟩
  advance_bind := by
    intro _ next further t rest
    have moved : FollowsAt guarded opened table (lift Parser.advance) Parser.advance t :=
      followsAt_lift_of_ok ⟨(), rfl⟩
    apply moved.bind
    intro _ m _ reached
    cases reached
    exact rest t.advance t.cursor.size_advance_le_size Cursor.size_advance_lt_size
  name?_bind := by
    intro _ next further t named unnamed
    apply (followsAt_name? t).bind
    intro found m taken reached
    rcases run_name? t with ⟨x, _, smaller, found⟩ | ⟨_, found⟩
    · rw [found] at taken reached
      cases taken
      cases reached
      exact named x t.advance smaller
    · rw [found] at taken reached
      cases taken
      cases reached
      exact unnamed
  fail quotes := followsAt_fail quotes
  note x t := followsAt_lift_of_ok ⟨(), rfl⟩

/-- A primary follows the one that has room for as many primaries as may still be opened. -/
theorem followsAt_enter {inner : Counter Expression}
    (inside : FollowsAt guarded (t.opened + 1) table inner
      (Parser.operand (Parser.chain table
        (Parser.primaryWithin table (Parser.nestingLimit - (t.opened + 1))))) t.enter) :
    FollowsAt guarded t.opened table (enter guarded inner)
      (Parser.primaryWithin table (Parser.nestingLimit - t.opened)) t := by
  intro _ isTable
  by_cases stops : guarded = true ∧ Parser.nestingLimit ≤ t.opened
  · have noRoom : Parser.nestingLimit - t.opened = 0 := Nat.sub_eq_zero_of_le stops.2
    have run : (enter guarded inner).run t =
        (lift (Parser.fail (.tooDeep Parser.nestingLimit))).run t := run_enter_of_stops inner stops
    rw [noRoom, run]
    exact followsAt_fail rfl rfl isTable
  · obtain ⟨entered, follows, through⟩ := inside rfl isTable
    rw [run_enter_of_passes inner stops]
    refine ⟨⟨t.opened, t.cursor.current⟩ :: entered, ?_⟩
    by_cases full : Parser.nestingLimit ≤ t.opened
    · have noRoom : Parser.nestingLimit - t.opened = 0 := Nat.sub_eq_zero_of_le full
      rw [noRoom]
      exact ⟨follows.leave_full full, fun on => absurd ⟨on, full⟩ stops⟩
    · have room : Parser.nestingLimit - t.opened = Parser.nestingLimit - (t.opened + 1) + 1 := by
        omega
      rw [room, Entrance.stop?_cons_of_not_le entered full]
      exact ⟨follows.leave full, through⟩

/-- With or without the guard, a primary is read as the grammar has it, as far as the guard lets
through. -/
theorem followsAt_primary (guarded : Bool) (t : Tally) :
    FollowsAt guarded t.opened table (primary guarded)
      (Parser.primaryWithin table (Parser.nestingLimit - t.opened)) t := by
  -- The depth to which the parser without a guard goes is not bounded, so the induction is on the
  -- lexemes that are left. With every primary entered the plain parser has room for one less.
  induction size : t.size using Nat.strongRecOn generalizing t with
  | ind n ih =>
      rw [primary_eq]
      apply followsAt_enter
      have kept := followsAt_congruence guarded (t.opened + 1) table
      rw [← Parser.rules_operand, ← Parser.rules_chain]
      apply kept.operand
      intro u smaller
      apply kept.chain followsAt_table
      intro v further isOpened
      have shorter : v.size < n := size ▸ Nat.lt_of_le_of_lt further smaller
      have rule := ih v.size shorter v rfl
      rw [isOpened] at rule
      exact rule isOpened

theorem followsAt_chain (guarded : Bool) (opened : Nat) (t : Tally) :
    FollowsAt guarded opened table (expression guarded)
      (Parser.chain table (Parser.primaryWithin table (Parser.nestingLimit - opened))) t := by
  rw [← Parser.rules_chain]
  apply (followsAt_congruence guarded opened table).chain followsAt_table
  intro u _ isOpened
  have rule := @followsAt_primary table guarded u
  rw [isOpened] at rule
  exact rule isOpened

theorem followsAt_expression (guarded : Bool) (t : Tally) :
    FollowsAt guarded 0 table (expression guarded) (Parser.expression table) t :=
  followsAt_chain guarded 0 t

theorem followsAt_definition (guarded : Bool) (t : Tally) :
    FollowsAt guarded 0 table (definition guarded) (Parser.definition table) t :=
  (followsAt_congruence guarded 0 table).definition (followsAt_expression guarded)

end Counter

end FormulaReader
