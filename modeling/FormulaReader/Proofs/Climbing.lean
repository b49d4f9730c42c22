import FormulaReader.Proofs.Recognition
import FormulaReader.Proofs.Rules

/-!
Climbing: the loop that groups a chain while it reads it. A round of the loop takes a connective and
its operand; where a tighter connective comes next, the operand is first completed by the loop
itself, from the next higher precedence on. The loop does what reading the links first and grouping
them afterwards does, so it takes all links that bind tightly enough and no others. The precedence
that it adds one to is never the highest there is, and what counts as the precedence of a token that
is no connective does not matter.
-/

namespace FormulaReader

/-- The precedence of a token, where `otherwise` is that of whatever is no connective. -/
def Precedence.ofTokenOr (table : Precedence) (otherwise : Int32) : Token → Int32
  | .connective kind => table.of kind
  | _ => otherwise

theorem Precedence.ofTokenOr_neg_one (table : Precedence) :
    table.ofTokenOr (-1) = table.ofToken := by
  funext t
  cases t <;> rfl

/-! ## Chains and their first link -/

namespace Chain

variable {table : Precedence} {least : Int32} {left right : Expression} {kind : Connective}
  {inner further : List Link}

/-- There is one tree for each chain: the link that is its root is determined by the precedences. -/
theorem eq_grouped_iff {e : Expression} {links : List Link} :
    e = grouped table left links ↔
      links = [] ∧ e = left ∨
        ∃ before root after, Splits table links before root after ∧
          e = .binary root.connective (grouped table left before)
            (grouped table root.operand after) := by
  constructor
  · intro same
    cases found : loosest? table links with
    | none =>
        have nothing : links = [] := loosest?_eq_none_iff.mp found
        rw [nothing, grouped_nil] at same
        exact .inl ⟨nothing, same⟩
    | some parts =>
        have splits := splits_of_loosest? found
        rw [grouped_of_splits left splits] at same
        exact .inr ⟨_, _, _, splits, same⟩
  · rintro (⟨nothing, same⟩ | ⟨before, root, after, splits, same⟩)
    · rw [nothing, grouped_nil, same]
    · rw [grouped_of_splits left splits, same]

/-- Where the next link is not tighter, the first one can be grouped at once. -/
theorem tree_cons
    (binds : least ≤ table.of kind)
    (furtherBind : ∀ link ∈ further, least ≤ table.of link.connective)
    (stops : ∀ next ∈ further.head?, table.of next.connective ≤ table.of kind) :
    tree table least left (⟨kind, right⟩ :: further) =
      tree table least (.binary kind left right) further := by
  have allBind : ∀ link ∈ (⟨kind, right⟩ :: further : List Link),
      least ≤ table.of link.connective := List.forall_mem_cons.mpr ⟨binds, furtherBind⟩
  have tighter : ∀ other ∈ ([] : List Link),
      table.of (Link.mk kind right).connective < table.of other.connective := by simp
  have alone := grouped_cons_append left tighter stops
  rw [grouped_nil] at alone
  rw [tree_eq_grouped left allBind, tree_eq_grouped _ furtherBind]
  exact alone

/-- Where tighter links follow, its operand is completed with these first. -/
theorem tree_cons_append
    (binds : least ≤ table.of kind)
    (step : ∀ precedence, table.of kind + 1 ≤ precedence ↔ table.of kind < precedence)
    (innerBind : ∀ link ∈ inner, table.of kind + 1 ≤ table.of link.connective)
    (furtherBind : ∀ link ∈ further, least ≤ table.of link.connective)
    (stops : ∀ next ∈ further.head?, table.of next.connective < table.of kind + 1) :
    tree table least left (⟨kind, right⟩ :: (inner ++ further)) =
      tree table least (.binary kind left (tree table (table.of kind + 1) right inner))
        further := by
  have tighter : ∀ link ∈ inner, table.of kind < table.of link.connective := fun link member =>
    (step _).mp (innerBind link member)
  have notTighter : ∀ next ∈ further.head?, table.of next.connective ≤ table.of kind := by
    intro next head
    have below := Int32.not_le.mpr (stops next head)
    rw [step] at below
    exact Int32.not_lt.mp below
  have allBind : ∀ link ∈ (⟨kind, right⟩ :: (inner ++ further) : List Link),
      least ≤ table.of link.connective := by
    intro link member
    rcases List.mem_cons.mp member with same | later
    · rw [same]
      exact binds
    · rcases List.mem_append.mp later with inside | behind
      · exact Int32.le_trans binds (Int32.le_of_lt (tighter link inside))
      · exact furtherBind link behind
  rw [tree_eq_grouped left allBind, tree_eq_grouped _ furtherBind, tree_eq_grouped _ innerBind]
  exact grouped_cons_append left tighter notTighter

end Chain

namespace Parser

variable {α β : Type} {table : Precedence} {least : Int32} {operand : Parser Expression}
  {c d m : Cursor}

/-! ## Runs of links -/

/-- From `c` to `d` the input is a run of links, each a connective of precedence at least `least`
with the operand after it, and it does not go on with a further one. -/
inductive Linked (table : Precedence) (least : Int32) (operand : Parser Expression) :
    Cursor → List Link → Cursor → Prop
  | stop {c : Cursor} :
      (∀ kind, c.token = .connective kind → table.of kind < least) →
      Linked table least operand c [] c
  | step {c m d : Cursor} {kind : Connective} {right : Expression} {later : List Link} :
      c.token = .connective kind →
      least ≤ table.of kind →
      operand.Reads c.advance right m →
      Linked table least operand m later d →
      Linked table least operand c (⟨kind, right⟩ :: later) d

theorem reads_links_iff_linked {values : List Link} :
    (links table least operand).Reads c values d ↔ Linked table least operand c values d := by
  rw [links, reads_many]
  constructor
  · intro repetition
    induction repetition with
    | @stop c stops =>
        apply Linked.stop
        intro kind found
        apply Int32.not_le.mp
        intro binds
        have atEnd := stops kind (connectiveFrom_eq_some_iff.mpr ⟨found, binds⟩)
        simp [found] at atEnd
    | step leads _ first _ ih =>
        rcases connectiveFrom_eq_some_iff.mp leads with ⟨found, binds⟩
        rcases reads_bind_pure.mp first with ⟨right, read, rfl⟩
        exact .step found binds read ih
  · intro linked
    induction linked with
    | @stop c stops =>
        apply Repeats.stop
        intro kind leads
        rcases connectiveFrom_eq_some_iff.mp leads with ⟨found, binds⟩
        exact absurd (stops kind found) (Int32.not_lt.mpr binds)
    | step found binds read _ ih =>
        refine .step (connectiveFrom_eq_some_iff.mpr ⟨found, binds⟩) (by simp [found]) ?_ ih
        exact reads_bind_pure.mpr ⟨_, read, rfl⟩

namespace Linked

variable {values : List Link}

theorem bind (linked : Linked table least operand c values d) :
    ∀ link ∈ values, least ≤ table.of link.connective := by
  induction linked with
  | stop _ => simp
  | step _ binds _ _ ih => exact List.forall_mem_cons.mpr ⟨binds, ih⟩

/-- The first link begins with the current token. -/
theorem head (linked : Linked table least operand c values d) :
    ∀ link ∈ values.head?, c.token = .connective link.connective := by
  cases linked with
  | stop _ => simp
  | step found _ _ _ => simpa using found

theorem stops (linked : Linked table least operand c values d) :
    ∀ kind, d.token = .connective kind → table.of kind < least := by
  induction linked with
  | stop stops => exact stops
  | step _ _ _ _ ih => exact ih

end Linked

/-! ## Parsers that do the same -/

theorem run_bind_congr {p q : Parser α} {next further : α → Parser β}
    (first : p.run c = q.run c)
    (second : ∀ a m, p.Reads c a m → (next a).run m = (further a).run m) :
    (p >>= next).run c = (q >>= further).run c := by
  simp only [Reads] at second
  simp only [run_bind, Activity.bind_apply, ← first]
  cases outcome : p.run c with
  | mk result m events =>
      rw [outcome] at second
      cases result with
      | error e => rfl
      | ok a => exact congrArg (Outcome.after events) (second a m ⟨rfl, rfl⟩)

theorem Reads.size_le {p : Parser α} {a : α} (read : p.Reads c a m) : m.size ≤ c.size :=
  read.2 ▸ (p.path c).size_le

/-- A repetition can be interrupted where fewer tokens lead on. -/
theorem many_eq_append {lead narrower : Token → Option β} {item : β → Parser α}
    (within : ∀ t b, narrower t = some b → lead t = some b) :
    many lead item = many narrower item >>= fun front => (front ++ ·) <$> many lead item := by
  apply eq_of_run
  funext c
  induction size : c.size using Nat.strongRecOn generalizing c with
  | ind n ih =>
      rw [many_eq narrower item, bind_assoc, run_token_bind]
      cases leads : narrower c.token with
      | none => simp
      | some b =>
          by_cases atEnd : c.token = .endOfInput
          · simp [atEnd]
          · conv =>
              lhs
              rw [many_eq, run_token_bind, within _ _ leads]
            simp only [atEnd, if_false, bind_assoc, bind_map_left]
            apply run_bind_congr rfl
            intro a m read
            have shorter : m.size < n := by
              have smaller := size_afterNext_lt (item b) atEnd
              rw [read.2, size] at smaller
              exact smaller
            have regrouped :
                (a :: ·) <$> (many narrower item >>= fun front => (front ++ ·) <$> many lead item) =
                  many narrower item >>= fun front => (a :: front ++ ·) <$> many lead item := by
              simp only [map_bind, Functor.map_map, List.cons_append]
            calc
              ((a :: ·) <$> many lead item).run m
              _ = Outcome.map (a :: ·) ((many lead item).run m) := rfl
              _ = Outcome.map (a :: ·)
                    ((many narrower item >>= fun front => (front ++ ·) <$> many lead item).run m) := by
                  rw [ih m.size shorter m rfl]
              _ = _ := congrFun (congrArg Parser.run regrouped) m

/-! ## The loop -/

/-- One round of the loop that groups while it reads, where `again` stands for the loop. If the next
higher precedence is none that there is, the round goes on with `overflow`. -/
def climbingRound (table : Precedence) (otherwise : Int32) (overflow : Expression → Parser Expression)
    (operand : Parser Expression) (again : Int32 → Expression → Parser Expression)
    (least : Int32) (left : Expression) : Parser Expression := do
  match ← token with
  | .connective kind =>
      let precedence := table.of kind
      if precedence < least then return left
      else
        advance
        let right ← operand
        if precedence < table.ofTokenOr otherwise (← token) then
          let whole ←
            if (precedence + 1).toInt = precedence.toInt + 1 then again (precedence + 1) right
            else overflow right
          again least (.binary kind left whole)
        else
          again least (.binary kind left right)
  | _ => return left

section Loop

variable {otherwise : Int32} {overflow : Expression → Parser Expression}
  {again more : Int32 → Expression → Parser Expression} {left right : Expression}
  {kind : Connective}

/-- A run of links is over, or begins with a connective and its operand. -/
theorem links_eq (table : Precedence) (least : Int32) (operand : Parser Expression) :
    links table least operand = token >>= fun t =>
      match connectiveFrom table least t with
      | none => pure []
      | some kind =>
          advance >>= fun _ => operand >>= fun right =>
            (⟨kind, right⟩ :: ·) <$> links table least operand := by
  conv =>
    lhs
    rw [links, many_eq]
  apply bind_congr
  intro t
  cases leads : connectiveFrom table least t with
  | none => rfl
  | some kind =>
      rcases connectiveFrom_eq_some_iff.mp leads with ⟨found, _⟩
      have notEnd : t ≠ .endOfInput := by simp [found]
      simp only [notEnd, if_false, afterNext, bind_assoc, pure_bind]
      rfl

theorem links_eq_append {higher : Int32} (above : least ≤ higher) :
    links table least operand =
      links table higher operand >>= fun front => (front ++ ·) <$> links table least operand := by
  apply many_eq_append
  intro t kind leads
  rcases connectiveFrom_eq_some_iff.mp leads with ⟨found, binds⟩
  exact connectiveFrom_eq_some_iff.mpr ⟨found, Int32.le_trans above binds⟩

theorem continuation_eq (left : Expression) :
    continuation table operand least left =
      Chain.tree table least left <$> links table least operand := by
  rw [map_eq_pure_bind]
  rfl

/-- The links after an operand that no tighter connective follows. -/
theorem run_links_of_not_tighter
    (binds : least ≤ table.of kind)
    (notTighter : ¬ table.of kind < table.ofTokenOr otherwise m.token) :
    ((fun later => Chain.tree table least left (⟨kind, right⟩ :: later)) <$>
        links table least operand).run m =
      (continuation table operand least (.binary kind left right)).run m := by
  rw [continuation_eq, map_eq_pure_bind, map_eq_pure_bind]
  apply run_bind_congr rfl
  intro later d read
  have linked := reads_links_iff_linked.mp read
  have stops : ∀ next ∈ later.head?, table.of next.connective ≤ table.of kind := by
    intro next first
    rw [linked.head next first] at notTighter
    exact Int32.not_lt.mp notTighter
  rw [Chain.tree_cons binds linked.bind stops]

/-- The links after an operand that a tighter connective follows. -/
theorem run_links_of_tighter
    (binds : least ≤ table.of kind)
    (step : ∀ precedence, table.of kind + 1 ≤ precedence ↔ table.of kind < precedence) :
    ((fun later => Chain.tree table least left (⟨kind, right⟩ :: later)) <$>
        links table least operand).run m =
      (continuation table operand (table.of kind + 1) right >>= fun whole =>
        continuation table operand least (.binary kind left whole)).run m := by
  have higher : table.of kind < table.of kind + 1 := (step _).mp (Int32.le_refl _)
  have above : least ≤ table.of kind + 1 := Int32.le_trans binds (Int32.le_of_lt higher)
  rw [links_eq_append above]
  simp only [continuation_eq, map_bind, Functor.map_map, bind_map_left]
  apply run_bind_congr rfl
  intro inner d read
  have first := reads_links_iff_linked.mp read
  simp only [map_eq_pure_bind]
  apply run_bind_congr rfl
  intro further k readOn
  have second := reads_links_iff_linked.mp readOn
  have stops : ∀ next ∈ further.head?, table.of next.connective < table.of kind + 1 := by
    intro next head
    exact first.stops next.connective (second.head next head)
  rw [Chain.tree_cons_append binds step first.bind second.bind stops]

/-- Reading the links first and grouping them afterwards goes round by round as the loop does. -/
theorem continuation_eq_climbingRound (otherwise : Int32)
    (overflow : Expression → Parser Expression) (least : Int32) (left : Expression) :
    continuation table operand least left =
      climbingRound table otherwise overflow operand (continuation table operand) least left := by
  apply eq_of_run
  funext c
  rw [continuation_eq, links_eq, climbingRound, map_bind, run_token_bind, run_token_bind]
  cases c.token with
  | connective kind =>
      by_cases below : table.of kind < least
      · simp [connectiveFrom, below, Chain.tree, Chain.climb]
      · simp only [connectiveFrom, below, if_false, map_bind, Functor.map_map]
        apply run_bind_congr rfl
        intro _ m _
        apply run_bind_congr rfl
        intro right k _
        rw [run_token_bind]
        have binds : least ≤ table.of kind := Int32.not_lt.mp below
        by_cases tighter : table.of kind < table.ofTokenOr otherwise k.token
        · rw [if_pos tighter, if_pos (Chain.toInt_succ tighter)]
          exact run_links_of_tighter binds fun _ => Chain.succ_le_iff_lt tighter
        · rw [if_neg tighter]
          exact run_links_of_not_tighter binds tighter
  | _ => simp [connectiveFrom, Chain.tree, Chain.climb]

theorem reads_continuation_iff {e : Expression} :
    (continuation table operand least left).Reads c e d ↔
      ∃ values, Linked table least operand c values d ∧ e = Chain.grouped table left values := by
  rw [continuation_eq, reads_map]
  constructor
  · rintro ⟨values, read, grouped⟩
    have linked := reads_links_iff_linked.mp read
    rw [Chain.tree_eq_grouped left linked.bind] at grouped
    exact ⟨values, linked, grouped⟩
  · rintro ⟨values, linked, grouped⟩
    rw [← Chain.tree_eq_grouped left linked.bind] at grouped
    exact ⟨values, reads_links_iff_linked.mpr linked, grouped⟩

/-- A round depends on the loop only where less of the input is left. -/
theorem run_climbingRound
    (same : ∀ least left m, m.size < c.size → (again least left).run m = (more least left).run m) :
    (climbingRound table otherwise overflow operand again least left).run c =
      (climbingRound table otherwise overflow operand more least left).run c := by
  rw [climbingRound, climbingRound, run_token_bind, run_token_bind]
  cases found : c.token with
  | connective kind =>
      have notEnd : c.token ≠ .endOfInput := by simp [found]
      by_cases below : table.of kind < least
      · simp only [below, if_true]
      · simp only [below, if_false]
        apply run_bind_congr rfl
        intro _ m moved
        have shorter : m.size < c.size := by
          rw [reads_advance.mp moved]
          exact c.size_advance_lt_size notEnd
        apply run_bind_congr rfl
        intro right k read
        have further : k.size < c.size := Nat.lt_of_le_of_lt read.size_le shorter
        rw [run_token_bind, run_token_bind]
        split
        · split
          · apply run_bind_congr (same _ _ k further)
            intro whole l readOn
            exact same _ _ l (Nat.lt_of_le_of_lt readOn.size_le further)
          · apply run_bind_congr rfl
            intro whole l readOn
            exact same _ _ l (Nat.lt_of_le_of_lt readOn.size_le further)
        · exact same _ _ k further
  | _ => rfl

/-- So the loop is the only one that goes round by round like that. -/
theorem eq_climbingRound_iff :
    again = climbingRound table otherwise overflow operand again ↔
      again = continuation table operand := by
  constructor
  · intro recursive
    funext least left
    apply eq_of_run
    funext c
    induction size : c.size using Nat.strongRecOn generalizing least left c with
    | ind n ih =>
        rw [recursive, continuation_eq_climbingRound otherwise overflow]
        apply run_climbingRound
        intro higher right m smaller
        exact ih m.size (size ▸ smaller) higher right m rfl
  · intro same
    rw [same]
    funext least left
    exact continuation_eq_climbingRound otherwise overflow least left

end Loop

/-- From any cursor on, with any number of primaries that may still be opened and from any least
precedence on, the continuation of a chain is what the loop reads that groups while it reads, whatever
it would do if a sum overflowed, and whatever is taken for the precedence of a token that is no
connective, −1 or another. It succeeds just where a run of links of at least that precedence can be
read as far as it goes, and returns the tree of these links: the rightmost of those with the lowest
precedence is its root, with the trees of the links to its left and to its right below. -/
theorem continuation_climbs (table : Precedence) (room : Nat) :
    (∀ (otherwise : Int32) (overflow : Expression → Parser Expression)
      (again : Int32 → Expression → Parser Expression),
      again = climbingRound table otherwise overflow (primaryWithin table room) again ↔
        again = continuation table (primaryWithin table room)) ∧
    table.ofTokenOr (-1) = table.ofToken ∧
    (∀ (least : Int32) (left e : Expression) (c d : Cursor),
      (continuation table (primaryWithin table room) least left).Reads c e d ↔
        ∃ links, Linked table least (primaryWithin table room) c links d ∧
          e = Chain.grouped table left links) ∧
    ∀ (left e : Expression) (links : List Link), e = Chain.grouped table left links ↔
      links = [] ∧ e = left ∨
        ∃ before root after, Chain.Splits table links before root after ∧
          e = .binary root.connective (Chain.grouped table left before)
            (Chain.grouped table root.operand after) :=
  ⟨fun _ _ _ => eq_climbingRound_iff, table.ofTokenOr_neg_one,
    fun _ _ _ _ _ => reads_continuation_iff, fun _ _ _ => Chain.eq_grouped_iff⟩

/-- Below −1 precedences order connectives as anywhere else. -/
example :
    ((continuation ⟨-5, -7⟩ (primary ⟨-5, -7⟩) Int32.minValue (.var "a")).run
        (Cursor.ofFeed ("/\\ b \\/ c)".toList.map some)).advance).result.toOption =
      some (.binary .or (.binary .and (.var "a") (.var "b")) (.var "c")) := by
  decide +kernel

end Parser

end FormulaReader
