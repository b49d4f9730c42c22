import FormulaReader.Proofs.Segments

/-!
Resynchronisation: a semicolon parts an input for good. What stands before it is read as if the
input ended there, and what stands behind it as if the input began there.
-/

namespace FormulaReader

/-! ## Characters -/

namespace Text

/-- The character belongs to no word and to no connective, and it is no blank. -/
structure Lone (c : Char) : Prop where
  notBlank : isBlank c = false
  notInWord : c.isAlphanum = false
  notInGlyph : c ≠ '/' ∧ c ≠ '\\'

theorem lone_semicolon : Lone ';' := by
  constructor <;> decide

theorem Lone.notLetter {c : Char} (lone : Lone c) : c.isAlpha = false := by
  have notInWord := lone.notInWord
  rw [Char.isAlphanum] at notInWord
  exact (Bool.or_eq_false_iff.mp notInWord).1

theorem Lone.ofGlyph?_left {c : Char} (lone : Lone c) (second : Option Char) :
    Connective.ofGlyph? c second = none := by
  obtain ⟨notSlash, notBackslash⟩ := lone.notInGlyph
  simp [Connective.ofGlyph?, notSlash, notBackslash]

theorem Lone.ofGlyph?_right {c : Char} (lone : Lone c) (first : Char) :
    Connective.ofGlyph? first (some c) = none := by
  obtain ⟨notSlash, notBackslash⟩ := lone.notInGlyph
  simp [Connective.ofGlyph?, notSlash, notBackslash]

theorem takeWhile_append_outside (inClass : Char → Bool) (cs ds : List Char) {x : Char}
    (outside : inClass x = false) :
    (cs ++ x :: ds).takeWhile inClass = cs.takeWhile inClass ∧
      (cs ++ x :: ds).dropWhile inClass = cs.dropWhile inClass ++ x :: ds := by
  induction cs with
  | nil => simp [outside]
  | cons c cs ih =>
      by_cases inside : inClass c = true
      · simp [inside, ih]
      · simp [inside]

/-- Neither a word nor a connective goes across a character that belongs to neither. -/
theorem sightings_append_lone {x : Char} (lone : Lone x) (cs ds : List Char) (p : Position) :
    sightings (cs ++ x :: ds) p =
      sightings cs p ++ ⟨.symbol x, p.after cs⟩ :: sightings ds ((p.after cs).next x) := by
  fun_induction sightings cs p with
  | case1 p =>
      exact sightings_symbol p lone.notBlank lone.notLetter (lone.ofGlyph?_left ds.head?)
  | case2 c cs p blank ih =>
      rw [List.cons_append, sightings_blank _ p blank, ih, Position.after_cons]
  | case3 c cs p _ letter letters ih =>
      obtain ⟨taken, left⟩ := takeWhile_append_outside Char.isAlphanum cs ds lone.notInWord
      have whole : (p.after letters).after (cs.dropWhile Char.isAlphanum) = p.after (c :: cs) := by
        rw [← Position.after_append, List.cons_append, List.takeWhile_append_dropWhile]
      rw [List.cons_append, sightings_letter _ p letter, taken, left, ih, whole, List.cons_append]
  | case4 c cs p notBlank notLetter kind glyph ih =>
      obtain ⟨d, second, letters⟩ := Scanner.ofGlyph?_eq_some glyph
      obtain ⟨later, rfl⟩ := List.head?_eq_some_iff.mp second
      have whole : (p.after kind.glyph.toList).after later = p.after (c :: d :: later) := by
        rw [letters, ← Position.after_append]
        rfl
      rw [List.tail_cons, whole] at ih
      have ahead : Connective.ofGlyph? c (d :: later ++ x :: ds).head? = some kind := glyph
      rw [List.cons_append, sightings_connective p (by simpa using notBlank)
        (by simpa using notLetter) ahead, List.cons_append, List.tail_cons, ih, List.tail_cons,
        List.cons_append]
  | case5 c cs p notBlank notLetter glyph ih =>
      have ahead : Connective.ofGlyph? c (cs ++ x :: ds).head? = none := by
        cases cs with
        | nil => exact lone.ofGlyph?_right c
        | cons d later => exact glyph
      rw [List.cons_append, sightings_symbol p (by simpa using notBlank)
        (by simpa using notLetter) ahead, ih, Position.after_cons, List.cons_append]

theorem tokensOf_append_lone {x : Char} (lone : Lone x) (cs ds : List Char) :
    tokensOf (cs ++ x :: ds) = tokensOf cs ++ .symbol x :: tokensOf ds := by
  rw [tokensOf, sightings_append_lone lone, List.map_append, List.map_cons,
    map_token_sightings, map_token_sightings]

end Text

/-! ## Errors -/

/-- The fault, noticed at `t` where it was noticed at the end of the input. -/
def Fault.endingAt (t : Token) : Fault → Fault
  | .expectedExpression .endOfInput => .expectedExpression t
  | .unexpectedRest .endOfInput => .unexpectedRest t
  | fault => fault

def ParseError.endingAt (t : Token) (e : ParseError) : ParseError :=
  ⟨e.position, e.fault.endingAt t⟩

def ParseError.movedTo (base : Position) (e : ParseError) : ParseError :=
  ⟨base.movedTo e.position, e.fault⟩

theorem Fault.endingAt_foundAt_endOfInput (fault : Fault) (t : Token) :
    (fault.foundAt .endOfInput).endingAt t = fault.foundAt t := by
  cases fault <;> rfl

theorem Fault.endingAt_foundAt {u : Token} (fault : Fault) (t : Token)
    (notEnd : u ≠ .endOfInput) :
    (fault.foundAt u).endingAt t = fault.foundAt u := by
  cases fault with
  | expectedExpression found =>
      cases u with
      | endOfInput => exact absurd rfl notEnd
      | _ => rfl
  | unexpectedRest found =>
      cases u with
      | endOfInput => exact absurd rfl notEnd
      | _ => rfl
  | _ => rfl

theorem Fault.endingAt_endOfInput (fault : Fault) : fault.endingAt .endOfInput = fault := by
  cases fault with
  | expectedExpression found => cases found <;> rfl
  | unexpectedRest found => cases found <;> rfl
  | _ => rfl

/-! ## Inputs that go on -/

/-- From `d` on stand the `n` tokens that stand from `c` on up to the end of the input, at positions
that `move` gives, and a foreign token behind them. -/
structure Cursor.Continues (move : Position → Position) (n : Nat) (c d : Cursor) : Prop where
  token : ∀ i < n, (c.skip i).token = (d.skip i).token
  notEnd : ∀ i < n, (c.skip i).token ≠ .endOfInput
  finished : ∀ i, n ≤ i → (c.skip i).token = .endOfInput
  foreign : (d.skip n).token.foreign = true
  position : ∀ i ≤ n, (d.skip i).position = move (c.skip i).position

namespace Cursor.Continues

variable {move : Position → Position} {n : Nat} {c d : Cursor}

theorem skip {k : Nat} (continues : Continues move n c d) (within : k ≤ n) :
    Continues move (n - k) (c.skip k) (d.skip k) := by
  obtain ⟨token, notEnd, finished, foreign, position⟩ := continues
  constructor
  · intro i below
    rw [← Cursor.skip_add, ← Cursor.skip_add]
    exact token (k + i) (by omega)
  · intro i below
    rw [← Cursor.skip_add]
    exact notEnd (k + i) (by omega)
  · intro i beyond
    rw [← Cursor.skip_add]
    exact finished (k + i) (by omega)
  · rw [← Cursor.skip_add, Nat.add_sub_cancel' within]
    exact foreign
  · intro i below
    rw [← Cursor.skip_add, ← Cursor.skip_add]
    exact position (k + i) (by omega)

/-- The error that is raised in the longer input, from the one in the shorter. -/
theorem raise_skip {k : Nat} (continues : Continues move n c d) (within : k ≤ n)
    (fault : Fault) :
    (d.skip k).raise fault =
      ⟨move ((c.skip k).raise fault).position,
        ((c.skip k).raise fault).fault.endingAt (d.skip n).token⟩ := by
  have position := continues.position k within
  by_cases early : k < n
  · have notEnd := continues.notEnd k early
    have same := continues.token k early
    have kept := Fault.endingAt_foundAt fault (d.skip n).token notEnd
    simp only [raise, position, kept, ← same]
  · have last : k = n := by omega
    subst last
    have atEnd := continues.finished k (Nat.le_refl k)
    simp only [raise, position, atEnd, Fault.endingAt_foundAt_endOfInput]

theorem standsIn {α : Type} {p : Parser α} (continues : Continues move n c d)
    (heedful : p.HeedfulAt c) :
    Event.readCount (p.run c).events ≤ n ∧ Parser.StandsIn (p.run c) c d := by
  have within : Event.readCount (p.run c).events ≤ n := by
    apply Nat.le_of_not_lt
    intro beyond
    exact heedful n beyond (continues.finished n (Nat.le_refl n))
  refine ⟨within, ?_, ?_⟩
  · intro i below
    exact continues.token i (Nat.lt_of_lt_of_le below within)
  · by_cases early : Event.readCount (p.run c).events < n
    · exact .inl (continues.token _ early)
    · have last : Event.readCount (p.run c).events = n := by omega
      rw [last, continues.finished n (Nat.le_refl n)]
      exact .inr ⟨continues.foreign, .inr rfl⟩

theorem of_atEnd {finish : Lexeme}
    (atEnd : finish.token = .endOfInput)
    (foreign : d.token.foreign = true)
    (position : d.position = move finish.start) :
    Continues move 0 (along [] finish) d := by
  have finished : ∀ i, ∀ last : Lexeme, last.token = .endOfInput →
      ((along [] last).skip i).token = .endOfInput := by
    intro i
    induction i with
    | zero => exact fun _ ended => ended
    | succ i ih => exact fun last _ => ih last.endAfter rfl
  constructor
  · intro i below
    cases below
  · intro i below
    cases below
  · intro i _
    exact finished i finish atEnd
  · exact foreign
  · intro i below
    rw [Nat.le_zero.mp below]
    exact position

theorem cons
    (rest : Continues move n c.advance d.advance)
    (token : c.token = d.token)
    (notEnd : c.token ≠ .endOfInput)
    (position : d.position = move c.position) :
    Continues move (n + 1) c d := by
  constructor
  · intro i below
    cases i with
    | zero => exact token
    | succ i => exact rest.token i (Nat.lt_of_succ_lt_succ below)
  · intro i below
    cases i with
    | zero => exact notEnd
    | succ i => exact rest.notEnd i (Nat.lt_of_succ_lt_succ below)
  · intro i beyond
    cases i with
    | zero => cases beyond
    | succ i => exact rest.finished i (Nat.le_of_succ_le_succ beyond)
  · exact rest.foreign
  · intro i below
    cases i with
    | zero => exact position
    | succ i => exact rest.position i (Nat.le_of_succ_le_succ below)

/-- Lexemes with the same tokens, in another place and with more behind them. -/
theorem along_append {lexemes others rest : List Lexeme} {finish last : Lexeme}
    (isInner : Lexeme.Inner lexemes)
    (atEnd : finish.token = .endOfInput)
    (same : others.map Lexeme.sighting =
      lexemes.map fun lexeme => ⟨lexeme.token, move lexeme.start⟩)
    (foreign : (along rest last).token.foreign = true)
    (position : (along rest last).position = move finish.start) :
    Continues move lexemes.length (along lexemes finish) (along (others ++ rest) last) := by
  induction lexemes generalizing others with
  | nil =>
      rw [List.map_nil, List.map_eq_nil_iff] at same
      rw [same]
      exact of_atEnd atEnd foreign position
  | cons first later ih =>
      obtain ⟨other, more, rfl, sighted, further⟩ := List.map_eq_cons_iff.mp same
      have laterInner : Lexeme.Inner later := fun lexeme member =>
        isInner lexeme (List.mem_cons_of_mem first member)
      have tail := ih laterInner further
      have token : first.token = other.token := (congrArg Sighting.token sighted).symm
      have start : other.start = move first.start := congrArg Sighting.start sighted
      apply cons
      · rw [List.cons_append, advance_along_cons, advance_along_cons]
        exact tail
      · exact token
      · exact isInner first List.mem_cons_self
      · exact start

end Cursor.Continues

/-! ## Turns in inputs that go on -/

/-- The turn, its error at the position that `move` gives and noticed at `t` if at the end. -/
def Turn.carried (move : Position → Position) (t : Token) : Turn → Turn
  | .rejected e => .rejected ⟨move e.position, e.fault.endingAt t⟩
  | turn => turn

namespace Turn

variable {table : Precedence} {expressions : Bool} {move : Position → Position} {n : Nat}
  {c d : Cursor}

/-- Two turns in step: they find the same, and lead on by the same number of lexemes. -/
structure InStep (move : Position → Position) (n : Nat) (c d : Cursor) (one other : TurnRead) :
    Prop where
  turn : other.turn = one.turn.carried move (d.skip n).token
  closed : ∃ k ≤ n + 1, one.turn.closed one.cursor = c.skip k ∧
    other.turn.closed other.cursor = d.skip k

theorem inStep_attempt {α : Type} {p : Parser α} (kind : α → Item)
    (continues : Cursor.Continues move n c d)
    (isLocal : p.LocalAt c) :
    InStep move n c d (attempt p kind c) (attempt p kind d) := by
  obtain ⟨within, stands⟩ := continues.standsIn isLocal.heedful
  have mirror := (isLocal.steady d stands).result
  have reached := Parser.state_eq_skip p c
  have otherReached := isLocal.steady.state_eq stands
  cases result : (p.run c).result with
  | ok a =>
      rw [result] at mirror
      have same : (p.run d).result = .ok a := mirror
      simp only [attempt, result, same]
      refine ⟨rfl, Event.readCount (p.run c).events, by omega, reached, otherReached⟩
  | error e =>
      have raised := isLocal.steady.error_eq result
      have raisedLater := continues.raise_skip within e.fault
      rw [← reached, ← raised] at raisedLater
      rw [result, otherReached] at mirror
      have same : (p.run d).result =
          .error ⟨move e.position, e.fault.endingAt (d.skip n).token⟩ :=
        mirror.trans (congrArg Except.error raisedLater)
      simp only [attempt, result, same]
      refine ⟨rfl, Event.readCount (p.run c).events + 1, by omega, ?_, ?_⟩
      · rw [closed_of_not_item (by simp), reached, Cursor.skip_succ]
      · rw [closed_of_not_item (by simp), otherReached, Cursor.skip_succ]

theorem inStep_read (table : Precedence) (expressions : Bool)
    (continues : Cursor.Continues move n c d)
    (more : 0 < n) :
    InStep move n c d (read table expressions c) (read table expressions d) := by
  have sameToken : c.token = d.token := continues.token 0 more
  have notEnd : c.token ≠ .endOfInput := continues.notEnd 0 more
  have single : ∀ turn : Turn, (∀ parsed, turn ≠ .item parsed) →
      turn.carried move (d.skip n).token = turn → ∀ events others,
      InStep move n c d ⟨turn, c, events⟩ ⟨turn, d, others⟩ := by
    intro turn notItem same events others
    refine ⟨same.symm, 1, by omega, ?_, ?_⟩
    · exact closed_of_not_item notItem
    · exact closed_of_not_item notItem
  rw [read, read, ← sameToken]
  split
  · exact single .separator (by simp) rfl _ _
  · exact inStep_attempt .definition continues (Parser.localAt_definition table notEnd)
  · by_cases wanted : expressions = true
    · rw [if_pos wanted, if_pos wanted]
      exact inStep_attempt .expression continues (Parser.localAt_expression table c)
    · rw [if_neg wanted, if_neg wanted]
      exact single (.stray _) (by simp) rfl _ _

theorem eq_skip_pos {k : Nat} (notEnd : c.token ≠ .endOfInput)
    (closed : (read table expressions c).turn.closed (read table expressions c).cursor =
      c.skip k) :
    0 < k := by
  have smaller := size_closed_lt table expressions notEnd
  rw [closed] at smaller
  cases k with
  | zero => exact absurd smaller (Nat.lt_irrefl _)
  | succ k => exact Nat.succ_pos k

/-- The turns of the longer input begin with those of the shorter. The last of them may have been
closed by reading over the foreign token. -/
theorem all_of_continues (table : Precedence) (expressions : Bool)
    (continues : Cursor.Continues move n c d) :
    ∃ m, (m = n ∨ m = n + 1) ∧
      Turn.all table expressions d =
        (Turn.all table expressions c).map (carried move (d.skip n).token) ++
          Turn.all table expressions (d.skip m) := by
  induction size : n using Nat.strongRecOn generalizing n c d with
  | ind _ ih =>
      subst size
      by_cases more : 0 < n
      · have notEnd : c.token ≠ .endOfInput := continues.notEnd 0 more
        have sameToken : c.token = d.token := continues.token 0 more
        have otherNotEnd : d.token ≠ .endOfInput := by rwa [← sameToken]
        obtain ⟨turn, k, within, closed, otherClosed⟩ :=
          inStep_read table expressions continues more
        have positive := eq_skip_pos notEnd closed
        rw [all_of_notEnd notEnd, all_of_notEnd otherNotEnd, otherClosed, closed, turn]
        by_cases inside : k ≤ n
        · obtain ⟨m, last, rest⟩ := ih (n - k) (by omega) (continues.skip inside) rfl
          rw [← Cursor.skip_add, ← Cursor.skip_add, Nat.add_sub_cancel' inside] at rest
          refine ⟨k + m, by omega, ?_⟩
          rw [rest, List.map_cons, List.cons_append]
        · have past : k = n + 1 := by omega
          have finished := continues.finished k (by omega)
          refine ⟨k, .inr past, ?_⟩
          rw [all_of_atEnd finished, List.map_cons, List.map_nil, List.singleton_append]
      · have none : n = 0 := by omega
        subst none
        have finished : c.token = .endOfInput := continues.finished 0 (Nat.le_refl 0)
        refine ⟨0, .inl rfl, ?_⟩
        rw [all_of_atEnd finished, List.map_nil, List.nil_append, Cursor.skip_zero]

end Turn

/-! ## Reports -/

namespace SessionReport

theorem ofTurns_append (turns later : List Turn) :
    ofTurns (turns ++ later) =
      ⟨(ofTurns turns).items ++ (ofTurns later).items,
        (ofTurns turns).errors ++ (ofTurns later).errors,
        (ofTurns turns).warnings + (ofTurns later).warnings⟩ := by
  simp [ofTurns]

theorem ofTurns_carried (move : Position → Position) (t : Token) (turns : List Turn) :
    ofTurns (turns.map (Turn.carried move t)) =
      ⟨(ofTurns turns).items,
        (ofTurns turns).errors.map fun e => ⟨move e.position, e.fault.endingAt t⟩,
        (ofTurns turns).warnings⟩ := by
  induction turns with
  | nil => rfl
  | cons turn later ih =>
      have ⟨items, errors, warnings⟩ := SessionReport.mk.inj ih
      cases turn with
      | rejected e =>
          simp only [ofTurns] at items errors warnings ⊢
          simp [Turn.carried, items, errors, warnings]
      | _ =>
          simp only [ofTurns] at items errors warnings ⊢
          simp [Turn.carried, items, errors, warnings]

end SessionReport

/-! ## Texts with a semicolon between them -/

/-- The lexemes of the second text, moved behind the first, follow those of the first. -/
theorem Text.exists_lexemes_separated (first second : String) :
    ∃ lexemes separator later finish,
      lexemes.map Lexeme.sighting = sightings first.toList .first ∧
      separator.sighting = ⟨.symbol ';', Position.first.after first.toList⟩ ∧
      later.map Lexeme.sighting =
        (sightings second.toList .first).map
          (Sighting.movedTo (Position.first.after (first.toList ++ [';']))) ∧
      finish.sighting = ⟨.endOfInput, (Position.first.after (first.toList ++ [';'])).movedTo
        (Position.first.after second.toList)⟩ ∧
      (Cursor.ofFeed ((first ++ ";" ++ second).toList.map some)).advance =
        Cursor.along (lexemes ++ separator :: later) finish := by
  obtain ⟨all, finish, sighted, ended, _, start⟩ := exists_lexemes (first ++ ";" ++ second)
  have characters : (first ++ ";" ++ second).toList = first.toList ++ ';' :: second.toList := by
    simp
  rw [characters, sightings_append_lone lone_semicolon] at sighted
  obtain ⟨lexemes, tail, rfl, lexemesSighted, tailSighted⟩ := List.map_eq_append_iff.mp sighted
  obtain ⟨separator, later, rfl, separatorSighted, laterSighted⟩ :=
    List.map_eq_cons_iff.mp tailSighted
  refine ⟨lexemes, separator, later, finish, lexemesSighted, separatorSighted, ?_, ?_, start⟩
  · rw [laterSighted, sightings_eq_movedTo, Position.after_append]
    rfl
  · rw [ended, characters, Position.movedTo_after _ _ Position.counted_first,
      Position.movedTo_first, Position.after_append, Position.after_append]
    rfl

namespace Turn

variable {lexemes others : List Lexeme} {finish : Lexeme}

theorem all_of_moved (table : Precedence) (expressions : Bool) {move : Position → Position}
    {last : Lexeme}
    (isInner : Lexeme.Inner lexemes)
    (atEnd : finish.token = .endOfInput)
    (same : others.map Lexeme.sighting =
      lexemes.map fun lexeme => ⟨lexeme.token, move lexeme.start⟩)
    (finished : last.token = .endOfInput)
    (position : last.start = move finish.start) :
    Turn.all table expressions (Cursor.along others last) =
      (Turn.all table expressions (Cursor.along lexemes finish)).map
        (carried move .endOfInput) := by
  have foreign : (Cursor.along [] last).token.foreign = true := by
    rw [Cursor.token_along_nil, finished]
    rfl
  have continues := Cursor.Continues.along_append isInner atEnd same foreign position
  have length : others.length = lexemes.length := by simpa using congrArg List.length same
  have reached := Cursor.skip_along_append others [] last
  obtain ⟨m, stops, turns⟩ := all_of_continues table expressions continues
  rw [length] at reached
  rw [reached, Cursor.token_along_nil, finished, List.append_nil] at turns
  rw [List.append_nil] at reached
  have nothing : Turn.all table expressions ((Cursor.along others last).skip m) = [] := by
    apply all_of_atEnd
    rcases stops with rfl | rfl
    · rw [reached]
      exact finished
    · rw [Cursor.skip_succ, reached]
      rfl
  rw [turns, nothing, List.append_nil]

/-- The turns on a sentence, from those on lexemes that spell it. -/
theorem all_inputOf (table : Precedence) (expressions : Bool)
    (isInner : Lexeme.Inner lexemes)
    (atEnd : finish.token = .endOfInput) :
    Turn.all table expressions (Parser.inputOf (lexemes.map Lexeme.token)) =
      (Turn.all table expressions (Cursor.along lexemes finish)).map
        (carried (fun _ => .first) .endOfInput) := by
  apply all_of_moved table expressions isInner atEnd
  · rw [List.map_map, List.map_map]
    rfl
  · rfl
  · rfl

/-- No item begins at a symbol that no expression holds, and nothing is read over there. -/
theorem read_symbol (table : Precedence) (expressions : Bool) {c : Cursor} {x : Char}
    (symbol : c.token = .symbol x)
    (foreign : c.token.foreign = true) :
    (∀ parsed, (read table expressions c).turn ≠ .item parsed) ∧
      (read table expressions c).cursor = c := by
  have notOpening : x ≠ '(' := by
    rintro rfl
    rw [symbol] at foreign
    cases foreign
  have failed : (Parser.expression table).run c =
      ⟨.error ⟨c.position, .expectedExpression (.symbol x)⟩, c, []⟩ := by
    have refused : (Parser.primary table).run c =
        ⟨.error ⟨c.position, .expectedExpression (.symbol x)⟩, c, []⟩ := by
      rw [Parser.primary, Parser.nestingLimit, Parser.primaryWithin, Parser.operand,
        Parser.run_token_bind, symbol]
      simp [notOpening, Parser.fail]
    rw [Parser.expression, Parser.chain, Parser.run_bind, Activity.bind_apply, refused,
      Activity.andThen_error]
  rw [read, symbol]
  split
  · exact ⟨by simp, rfl⟩
  · next impossible => cases impossible
  · by_cases wanted : expressions = true
    · rw [if_pos wanted, attempt, failed]
      exact ⟨by simp, rfl⟩
    · rw [if_neg wanted]
      exact ⟨by simp, rfl⟩

/-- Behind such a symbol the turns go on as if the input began there. The symbol may take a turn of
its own, unless the turn before it was closed with it. -/
theorem all_before_symbol (table : Precedence) (expressions : Bool) (rest : List Lexeme)
    (last : Lexeme) {parting : Lexeme} {x : Char}
    (isInner : Lexeme.Inner lexemes)
    (atEnd : finish.token = .endOfInput)
    (same : others.map Lexeme.sighting = lexemes.map Lexeme.sighting)
    (symbol : parting.token = .symbol x)
    (foreign : parting.token.foreign = true)
    (position : parting.start = finish.start) :
    ∃ between : List Turn,
      (between = [] ∨
        between = [(read table expressions (Cursor.along (parting :: rest) last)).turn]) ∧
      Turn.all table expressions (Cursor.along (others ++ parting :: rest) last) =
        (Turn.all table expressions (Cursor.along lexemes finish)).map
            (carried id parting.token) ++
          (between ++ Turn.all table expressions (Cursor.along rest last)) := by
  have continues : Cursor.Continues id lexemes.length (Cursor.along lexemes finish)
      (Cursor.along (others ++ parting :: rest) last) :=
    Cursor.Continues.along_append isInner atEnd same foreign position
  have length : others.length = lexemes.length := by simpa using congrArg List.length same
  have reached := Cursor.skip_along_append others (parting :: rest) last
  obtain ⟨m, stops, turns⟩ := all_of_continues table expressions continues
  rw [length] at reached
  rw [reached, Cursor.token_along_cons] at turns
  rcases stops with rfl | rfl
  · have notEnd : (Cursor.along (parting :: rest) last).token ≠ .endOfInput := by
      rw [Cursor.token_along_cons, symbol]
      simp
    have atSymbol : (Cursor.along (parting :: rest) last).token = .symbol x := symbol
    obtain ⟨notItem, stays⟩ := read_symbol table expressions atSymbol foreign
    refine ⟨_, .inr rfl, ?_⟩
    rw [turns, reached, all_of_notEnd notEnd, closed_of_not_item notItem, stays,
      Cursor.advance_along_cons, List.singleton_append]
  · refine ⟨[], .inl rfl, ?_⟩
    rw [turns, Cursor.skip_succ, reached, Cursor.advance_along_cons, List.nil_append]

theorem ofTurns_before_separator (table : Precedence) (expressions : Bool)
    (rest : List Lexeme) (last : Lexeme) {separator : Lexeme}
    (isInner : Lexeme.Inner lexemes)
    (atEnd : finish.token = .endOfInput)
    (same : others.map Lexeme.sighting = lexemes.map Lexeme.sighting)
    (separates : separator.token = .symbol ';')
    (position : separator.start = finish.start) :
    SessionReport.ofTurns
        (Turn.all table expressions (Cursor.along (others ++ separator :: rest) last)) =
      SessionReport.ofTurns
        ((Turn.all table expressions (Cursor.along lexemes finish)).map
            (carried id (.symbol ';')) ++
          Turn.all table expressions (Cursor.along rest last)) := by
  have foreign : separator.token.foreign = true := by
    rw [separates]
    rfl
  obtain ⟨between, shape, turns⟩ := all_before_symbol table expressions rest last isInner atEnd
    same separates foreign position
  have silent : SessionReport.ofTurns between = ⟨[], [], 0⟩ := by
    rcases shape with rfl | rfl
    · rfl
    · rw [read, Cursor.token_along_cons, separates]
      rfl
  rw [turns, separates, SessionReport.ofTurns_append, SessionReport.ofTurns_append,
    SessionReport.ofTurns_append, silent]
  simp

end Turn

/-- What a session finds in two texts with a semicolon between them is what it finds in the first,
with a semicolon where that ends, and then what it finds in the second, moved behind it. -/
theorem Session.run_append_separator (table : Precedence) (options : SessionOptions)
    (first second : String) :
    ∃ firstReport secondReport : SessionReport,
      (Session.run table options (Cursor.ofFeed (first.toList.map some)) .unlimited).result =
        .ok firstReport ∧
      (Session.run table options (Cursor.ofFeed (second.toList.map some)) .unlimited).result =
        .ok secondReport ∧
      (Session.run table options (Cursor.ofFeed ((first ++ ";" ++ second).toList.map some))
          .unlimited).result =
        .ok ⟨firstReport.items ++ secondReport.items,
          firstReport.errors.map (ParseError.endingAt (.symbol ';')) ++
            secondReport.errors.map
              (ParseError.movedTo (Position.first.after (first.toList ++ [';']))),
          firstReport.warnings + secondReport.warnings⟩ := by
  obtain ⟨lexemes, finish, sighted, ended, isInner, start⟩ := Text.exists_lexemes first
  obtain ⟨later, laterFinish, laterSighted, laterEnded, laterInner, laterStart⟩ :=
    Text.exists_lexemes second
  obtain ⟨others, separator, rest, last, othersSighted, separatorSighted, restSighted, lastSighted,
    wholeStart⟩ := Text.exists_lexemes_separated first second
  have separatorStart : separator.start = finish.start :=
    (congrArg Sighting.start separatorSighted).trans (congrArg Sighting.start ended).symm
  have lastStart : last.start =
      (Position.first.after (first.toList ++ [';'])).movedTo laterFinish.start := by
    have laterFinishStart : laterFinish.start = Position.first.after second.toList :=
      congrArg Sighting.start laterEnded
    rw [laterFinishStart]
    exact congrArg Sighting.start lastSighted
  rw [← sighted] at othersSighted
  rw [← laterSighted, List.map_map] at restSighted
  have front := Turn.ofTurns_before_separator table options.expressions rest last isInner
    (congrArg Sighting.token ended) othersSighted (congrArg Sighting.token separatorSighted)
    separatorStart
  have back := Turn.all_of_moved table options.expressions laterInner
    (congrArg Sighting.token laterEnded) restSighted (congrArg Sighting.token lastSighted)
    lastStart
  have unended : ∀ e : ParseError, e.fault.endingAt .endOfInput = e.fault := fun e =>
    e.fault.endingAt_endOfInput
  refine ⟨_, _, (Session.yields_run table options _).1, (Session.yields_run table options _).1, ?_⟩
  rw [(Session.yields_run table options _).1, start, laterStart, wholeStart, front, back,
    SessionReport.ofTurns_append, SessionReport.ofTurns_carried, SessionReport.ofTurns_carried]
  simp only [unended]
  rfl

end FormulaReader
