import FormulaReader.Scanner.Basic

/-!
Sightings: what a scanner finds, without what it pulls. The tokens of an input and their positions
are a function of the characters before the first refusal of the source, by a recursion that needs
no lookahead of its own.
-/

namespace FormulaReader

/-- A token, and the position of its first character. -/
structure Sighting where
  token : Token
  start : Position
deriving DecidableEq

def Lexeme.sighting (lexeme : Lexeme) : Sighting :=
  ⟨lexeme.token, lexeme.start⟩

namespace Text

/-- The tokens of the characters `cs`, the first of which is at `p`. -/
def sightings : List Char → Position → List Sighting
  | [], _ => []
  | c :: cs, p =>
      if isBlank c then sightings cs (p.next c)
      else if c.isAlpha then
        let letters := c :: cs.takeWhile Char.isAlphanum
        ⟨.ofWord (String.ofList letters), p⟩ ::
          sightings (cs.dropWhile Char.isAlphanum) (p.after letters)
      else
        match Connective.ofGlyph? c cs.head? with
        | some kind =>
            ⟨.connective kind, p⟩ :: sightings cs.tail (p.after kind.glyph.toList)
        | none => ⟨.symbol c, p⟩ :: sightings cs (p.next c)
termination_by cs => cs.length
decreasing_by
  · simp
  · exact Nat.lt_succ_of_le (List.dropWhile_suffix Char.isAlphanum).length_le
  · simp only [List.length_tail, List.length_cons]
    omega
  · simp

@[simp] theorem sightings_nil (p : Position) : sightings [] p = [] := by
  rw [sightings]

theorem sightings_blank {c : Char} (cs : List Char) (p : Position)
    (blank : isBlank c = true) :
    sightings (c :: cs) p = sightings cs (p.next c) := by
  rw [sightings, if_pos blank]

theorem not_isBlank_of_isAlpha {c : Char} (letter : c.isAlpha = true) : isBlank c = false := by
  cases blank : isBlank c with
  | false => rfl
  | true =>
      simp only [isBlank, Bool.or_eq_true, decide_eq_true_eq] at blank
      rcases blank with ((((rfl | rfl) | rfl) | rfl) | rfl) | rfl <;> cases letter

theorem sightings_letter {c : Char} (cs : List Char) (p : Position)
    (letter : c.isAlpha = true) :
    sightings (c :: cs) p =
      ⟨.ofWord (String.ofList (c :: cs.takeWhile Char.isAlphanum)), p⟩ ::
        sightings (cs.dropWhile Char.isAlphanum)
          (p.after (c :: cs.takeWhile Char.isAlphanum)) := by
  rw [sightings, if_neg (by simp [not_isBlank_of_isAlpha letter]), if_pos letter]

theorem sightings_connective {c : Char} {cs : List Char} {kind : Connective} (p : Position)
    (notBlank : isBlank c = false)
    (notLetter : c.isAlpha = false)
    (glyph : Connective.ofGlyph? c cs.head? = some kind) :
    sightings (c :: cs) p =
      ⟨.connective kind, p⟩ :: sightings cs.tail (p.after kind.glyph.toList) := by
  rw [sightings, if_neg (by simp [notBlank]), if_neg (by simp [notLetter]), glyph]

theorem sightings_symbol {c : Char} {cs : List Char} (p : Position)
    (notBlank : isBlank c = false)
    (notLetter : c.isAlpha = false)
    (noGlyph : Connective.ofGlyph? c cs.head? = none) :
    sightings (c :: cs) p = ⟨.symbol c, p⟩ :: sightings cs (p.next c) := by
  rw [sightings, if_neg (by simp [notBlank]), if_neg (by simp [notLetter]), noGlyph]

theorem sightings_dropWhile_isBlank (cs : List Char) (p : Position) :
    sightings (cs.dropWhile isBlank) (p.after (cs.takeWhile isBlank)) = sightings cs p := by
  induction cs generalizing p with
  | nil => rfl
  | cons c cs ih =>
      by_cases blank : isBlank c = true
      · rw [List.dropWhile_cons_of_pos blank, List.takeWhile_cons_of_pos blank,
          Position.after_cons, ih, sightings_blank cs p blank]
      · rw [List.dropWhile_cons_of_neg blank, List.takeWhile_cons_of_neg blank,
          Position.after_nil]

theorem sightings_word {first : Char} {later rest : List Char} (p : Position)
    (letter : first.isAlpha = true)
    (inWord : ∀ c ∈ later, c.isAlphanum = true)
    (apart : ∀ c ∈ rest.head?, c.isAlphanum = false) :
    sightings (first :: later ++ rest) p =
      ⟨.ofWord (String.ofList (first :: later)), p⟩ ::
        sightings rest (p.after (first :: later)) := by
  have restOutside : rest.takeWhile Char.isAlphanum = [] ∧
      rest.dropWhile Char.isAlphanum = rest := by
    cases rest with
    | nil => exact ⟨rfl, rfl⟩
    | cons c cs => simp [apart c rfl]
  have taken : (later ++ rest).takeWhile Char.isAlphanum = later := by
    rw [List.takeWhile_append_of_pos inWord, restOutside.1, List.append_nil]
  have left : (later ++ rest).dropWhile Char.isAlphanum = rest := by
    rw [List.dropWhile_append_of_pos inWord, restOutside.2]
  rw [List.cons_append, sightings_letter _ p letter, taken, left]

theorem sightings_glyph (kind : Connective) (rest : List Char) (p : Position) :
    sightings (kind.glyph.toList ++ rest) p =
      ⟨.connective kind, p⟩ :: sightings rest (p.after kind.glyph.toList) := by
  cases kind with
  | and =>
      have glyph : Connective.ofGlyph? '/' ('\\' :: rest).head? = some .and := rfl
      exact sightings_connective p (by decide) (by decide) glyph
  | or =>
      have glyph : Connective.ofGlyph? '\\' ('/' :: rest).head? = some .or := rfl
      exact sightings_connective p (by decide) (by decide) glyph

end Text

/-! ## Texts further on -/

namespace Position

/-- The position that `p` turns into when its text is put behind another one, which ends at
`base`. -/
def movedTo (base p : Position) : Position :=
  if p.line = 1 then ⟨base.line, base.column + p.column - 1⟩
  else ⟨base.line + p.line - 1, p.column⟩

/-- Lines and columns are counted from one. -/
structure Counted (p : Position) : Prop where
  line : 0 < p.line
  column : 0 < p.column

theorem counted_first : Counted first := by
  constructor <;> decide

theorem Counted.next {p : Position} (counted : p.Counted) (c : Char) : (p.next c).Counted := by
  have ⟨line, column⟩ := counted
  rw [Position.next]
  split
  · exact ⟨Nat.succ_pos _, Nat.one_pos⟩
  · exact ⟨line, Nat.succ_pos _⟩

theorem Counted.after {p : Position} (counted : p.Counted) (cs : List Char) :
    (p.after cs).Counted := by
  induction cs generalizing p with
  | nil => exact counted
  | cons c cs ih => exact ih (counted.next c)

@[simp] theorem movedTo_first (base : Position) : base.movedTo first = base := by
  simp [movedTo, first]

theorem movedTo_next {p : Position} (base : Position) (c : Char) (counted : p.Counted) :
    base.movedTo (p.next c) = (base.movedTo p).next c := by
  have ⟨line, column⟩ := counted
  by_cases broken : c = '\n'
  · simp only [next, broken, if_true, movedTo]
    have below : p.line + 1 ≠ 1 := by omega
    rw [if_neg below]
    split
    · next top => simp [top]
    · simp only [mk.injEq, and_true]
      omega
  · simp only [next, broken, if_false, movedTo]
    split
    · simp only [mk.injEq, true_and]
      omega
    · rfl

theorem movedTo_after {p : Position} (base : Position) (cs : List Char) (counted : p.Counted) :
    base.movedTo (p.after cs) = (base.movedTo p).after cs := by
  induction cs generalizing p with
  | nil => rfl
  | cons c cs ih =>
      rw [after_cons, after_cons, ih (counted.next c), movedTo_next base c counted]

end Position

def Sighting.movedTo (base : Position) (s : Sighting) : Sighting :=
  ⟨s.token, base.movedTo s.start⟩

namespace Text

theorem sightings_movedTo (base : Position) (cs : List Char) {p : Position}
    (counted : p.Counted) :
    sightings cs (base.movedTo p) = (sightings cs p).map (Sighting.movedTo base) := by
  fun_induction sightings cs p with
  | case1 => simp
  | case2 c cs p blank ih =>
      rw [sightings_blank cs _ blank, ← Position.movedTo_next base c counted,
        ih (counted.next c)]
  | case3 c cs p _ letter letters ih =>
      rw [sightings_letter cs _ letter, ← Position.movedTo_after base letters counted,
        ih (counted.after letters)]
      rfl
  | case4 c cs p notBlank notLetter kind glyph ih =>
      rw [sightings_connective _ (by simpa using notBlank) (by simpa using notLetter) glyph,
        ← Position.movedTo_after base kind.glyph.toList counted,
        ih (counted.after kind.glyph.toList)]
      rfl
  | case5 c cs p notBlank notLetter noGlyph ih =>
      rw [sightings_symbol _ (by simpa using notBlank) (by simpa using notLetter) noGlyph,
        ← Position.movedTo_next base c counted, ih (counted.next c)]
      rfl

/-- Sightings from `p` on, in terms of those of the same characters on their own. -/
theorem sightings_eq_movedTo (cs : List Char) (p : Position) :
    sightings cs p = (sightings cs .first).map (Sighting.movedTo p) := by
  rw [← sightings_movedTo p cs Position.counted_first, Position.movedTo_first]

/-- The tokens alone, which do not depend on where the characters stand. -/
def tokensOf (cs : List Char) : List Token :=
  (sightings cs .first).map Sighting.token

theorem map_token_sightings (cs : List Char) (p : Position) :
    (sightings cs p).map Sighting.token = tokensOf cs := by
  rw [sightings_eq_movedTo, List.map_map, tokensOf]
  rfl

@[simp] theorem tokensOf_nil : tokensOf [] = [] := by
  rw [tokensOf, sightings_nil, List.map_nil]

theorem tokensOf_blank {c : Char} (cs : List Char) (blank : isBlank c = true) :
    tokensOf (c :: cs) = tokensOf cs := by
  rw [tokensOf, sightings_blank cs _ blank, map_token_sightings]

theorem tokensOf_glyph (kind : Connective) (rest : List Char) :
    tokensOf (kind.glyph.toList ++ rest) = .connective kind :: tokensOf rest := by
  rw [tokensOf, sightings_glyph, List.map_cons, map_token_sightings]

theorem tokensOf_symbol {c : Char} {cs : List Char}
    (notBlank : isBlank c = false)
    (notLetter : c.isAlpha = false)
    (noGlyph : Connective.ofGlyph? c cs.head? = none) :
    tokensOf (c :: cs) = .symbol c :: tokensOf cs := by
  rw [tokensOf, sightings_symbol _ notBlank notLetter noGlyph, List.map_cons,
    map_token_sightings]

end Text

/-! ## The characters a scanner has before it -/

/-- The characters before the first refusal. -/
def Feed.characters : Feed → List Char
  | [] => []
  | none :: _ => []
  | some c :: rest => c :: characters rest

theorem Feed.characters_map_some (cs : List Char) : Feed.characters (cs.map some) = cs := by
  induction cs with
  | nil => rfl
  | cons c cs ih => rw [List.map_cons, characters, ih]

def Lookahead.characters (feed : Feed) : Lookahead → List Char
  | .unread => feed.characters
  | .read none => []
  | .read (some c) => c :: feed.characters

def Scanner.characters (s : Scanner) : List Char :=
  s.lookahead.characters s.feed

theorem Feed.stretch_characters (inClass : Char → Bool) (feed : Feed) :
    (stretch inClass feed).taken = feed.characters.takeWhile inClass ∧
      (stretch inClass feed).stop = (feed.characters.dropWhile inClass).head? ∧
      (Lookahead.read (stretch inClass feed).stop).characters (stretch inClass feed).rest =
        feed.characters.dropWhile inClass := by
  fun_induction stretch inClass feed with
  | case1 => exact ⟨rfl, rfl, rfl⟩
  | case2 => exact ⟨rfl, rfl, rfl⟩
  | case3 c rest inside further ih =>
      obtain ⟨taken, stop, left⟩ := ih
      rw [characters, List.takeWhile_cons_of_pos inside, List.dropWhile_cons_of_pos inside]
      exact ⟨congrArg (c :: ·) taken, stop, left⟩
  | case4 c rest outside =>
      rw [characters, List.takeWhile_cons_of_neg outside, List.dropWhile_cons_of_neg outside]
      exact ⟨rfl, rfl, rfl⟩

theorem Lookahead.stretch_characters (lookahead : Lookahead) (inClass : Char → Bool)
    (feed : Feed) :
    (lookahead.stretch inClass feed).taken =
        (lookahead.characters feed).takeWhile inClass ∧
      (lookahead.stretch inClass feed).stop =
        ((lookahead.characters feed).dropWhile inClass).head? ∧
      (Lookahead.read (lookahead.stretch inClass feed).stop).characters
          (lookahead.stretch inClass feed).rest =
        (lookahead.characters feed).dropWhile inClass := by
  have further := Feed.stretch_characters inClass feed
  cases lookahead with
  | unread => exact further
  | read answer =>
      cases answer with
      | none => exact ⟨rfl, rfl, rfl⟩
      | some c =>
          by_cases inside : inClass c = true
          · simp only [stretch, characters, inside, if_true, Stretch.push,
              List.takeWhile_cons_of_pos, List.dropWhile_cons_of_pos]
            exact ⟨congrArg (c :: ·) further.1, further.2⟩
          · simp [stretch, characters, inside]

theorem Feed.pull_characters (feed : Feed) :
    feed.pull.1 = feed.characters.head? ∧
      (Lookahead.read feed.pull.1).characters feed.pull.2 = feed.characters ∧
      (feed.pull.1.isSome = true → feed.pull.2.characters = feed.characters.tail) := by
  cases feed with
  | nil => exact ⟨rfl, rfl, fun impossible => by cases impossible⟩
  | cons answer rest =>
      cases answer with
      | none => exact ⟨rfl, rfl, fun impossible => by cases impossible⟩
      | some c => exact ⟨rfl, rfl, fun _ => rfl⟩

/-! ## What a scanner finds -/

namespace Scanner

variable {c : Char} {cs : List Char} {p : Position} {feed : Feed} {s : Scanner}

/-- One step of a scanner that has `cs`, the first of them at `p`, before it. -/
structure Finds (step : Lexeme × Scanner) (cs : List Char) (p : Position) : Prop where
  sightings : Text.sightings cs p =
    step.1.sighting :: Text.sightings step.2.characters step.2.position
  token : step.1.token ≠ .endOfInput
  position : step.2.position.after step.2.characters = p.after cs

theorem Finds.of_pulled {step : Lexeme × Scanner} (finds : Finds step cs p)
    (pulled : List (Option Char)) :
    Finds ({ step.1 with pulled }, step.2) cs p :=
  ⟨finds.sightings, finds.token, finds.position⟩

theorem ofWord_ne_endOfInput (word : String) : Token.ofWord word ≠ .endOfInput := by
  rw [Token.ofWord]
  repeat' split
  all_goals simp

theorem finds_word (letter : c.isAlpha = true) :
    Finds (word c p feed) (c :: feed.characters) p := by
  obtain ⟨taken, _, left⟩ := Feed.stretch_characters Char.isAlphanum feed
  have before : (word c p feed).2.characters = feed.characters.dropWhile Char.isAlphanum := left
  refine ⟨?_, ofWord_ne_endOfInput _, ?_⟩
  · rw [Text.sightings_letter _ p letter, before, ← taken]
    rfl
  · have position : (word c p feed).2.position =
        p.after (c :: feed.characters.takeWhile Char.isAlphanum) := by
      rw [← taken]
      rfl
    rw [before, position, ← Position.after_append, List.cons_append,
      List.takeWhile_append_dropWhile]

theorem ofGlyph?_eq_some {first : Char} {second : Option Char} {kind : Connective}
    (found : Connective.ofGlyph? first second = some kind) :
    ∃ d, second = some d ∧ kind.glyph.toList = [first, d] := by
  simp only [Connective.ofGlyph?] at found
  split at found
  · cases found
    exact ⟨_, rfl, rfl⟩
  · cases found
    exact ⟨_, rfl, rfl⟩
  · cases found

theorem sign_of_none (glyph : Connective.ofGlyph? c feed.pull.1 = none) :
    sign c p feed =
      (⟨.symbol c, p, [feed.pull.1]⟩, ⟨.read feed.pull.1, p.next c, feed.pull.2⟩) := by
  rw [sign]
  simp only [glyph]

theorem sign_of_some {kind : Connective} (glyph : Connective.ofGlyph? c feed.pull.1 = some kind) :
    sign c p feed =
      (⟨.connective kind, p, [feed.pull.1]⟩,
        ⟨.unread, p.after kind.glyph.toList, feed.pull.2⟩) := by
  rw [sign]
  simp only [glyph]

/-- A connective is its first character and the next one. -/
theorem exists_glyph_of_some {kind : Connective}
    (glyph : Connective.ofGlyph? c feed.pull.1 = some kind) :
    ∃ d, feed.pull.1 = some d ∧ kind.glyph.toList = [c, d] ∧
      feed.characters = d :: feed.pull.2.characters := by
  obtain ⟨second, _, behind⟩ := Feed.pull_characters feed
  obtain ⟨d, pulled, letters⟩ := ofGlyph?_eq_some glyph
  have left : feed.pull.2.characters = feed.characters.tail := behind (by rw [pulled]; rfl)
  obtain ⟨later, all⟩ : ∃ later, feed.characters = d :: later := by
    rw [pulled] at second
    exact List.head?_eq_some_iff.mp second.symm
  exact ⟨d, pulled, letters, by rw [left, all, List.tail_cons]⟩

theorem finds_sign (notBlank : isBlank c = false) (notLetter : c.isAlpha = false) :
    Finds (sign c p feed) (c :: feed.characters) p := by
  obtain ⟨second, ahead, _⟩ := Feed.pull_characters feed
  cases glyph : Connective.ofGlyph? c feed.pull.1 with
  | none =>
      rw [sign_of_none glyph]
      rw [second] at glyph
      refine ⟨?_, by simp, ?_⟩
      · rw [Text.sightings_symbol p notBlank notLetter glyph, Scanner.characters, ahead]
        rfl
      · rw [Scanner.characters, ahead, Position.after_cons]
  | some kind =>
      obtain ⟨d, _, letters, all⟩ := exists_glyph_of_some glyph
      rw [sign_of_some glyph]
      rw [second] at glyph
      refine ⟨?_, by simp, ?_⟩
      · rw [Text.sightings_connective p notBlank notLetter glyph, Scanner.characters,
          Lookahead.characters, all, List.tail_cons]
        rfl
      · rw [Scanner.characters, Lookahead.characters, letters, all]
        rfl

theorem next_of_over (s : Scanner) (finished : s.characters.dropWhile isBlank = []) :
    s.next.1.sighting = ⟨.endOfInput, s.position.after s.characters⟩ := by
  obtain ⟨taken, stop, _⟩ := s.lookahead.stretch_characters isBlank s.feed
  have all : s.characters.takeWhile isBlank = s.characters := by
    have parts := List.takeWhile_append_dropWhile (p := isBlank) (l := s.characters)
    rwa [finished, List.append_nil] at parts
  have blanks : (s.lookahead.stretch isBlank s.feed).taken = s.characters := taken.trans all
  have none : (s.lookahead.stretch isBlank s.feed).stop = none := by
    rw [stop]
    exact congrArg List.head? finished
  simp only [next, none, blanks, Lexeme.sighting]

theorem finds_next (s : Scanner) (more : s.characters.dropWhile isBlank ≠ []) :
    Finds s.next s.characters s.position := by
  obtain ⟨taken, stop, left⟩ := s.lookahead.stretch_characters isBlank s.feed
  obtain ⟨c, cs, found⟩ := List.exists_cons_of_ne_nil more
  have first : (s.lookahead.stretch isBlank s.feed).stop = some c := by
    rw [stop]
    exact congrArg List.head? found
  have rest : (s.lookahead.stretch isBlank s.feed).rest.characters = cs := by
    rw [first] at left
    exact (List.cons.inj (left.trans found)).2
  have position : s.position.after s.characters =
      (s.position.after (s.lookahead.stretch isBlank s.feed).taken).after (c :: cs) := by
    rw [taken, ← Position.after_append, ← found]
    exact congrArg s.position.after List.takeWhile_append_dropWhile.symm
  have blanks : Text.sightings s.characters s.position =
      Text.sightings (c :: cs) (s.position.after (s.lookahead.stretch isBlank s.feed).taken) := by
    rw [← Text.sightings_dropWhile_isBlank s.characters, found, taken]
    rfl
  have notBlank : isBlank c = false := by
    have stopped := List.head?_dropWhile_not isBlank s.characters
    rw [found] at stopped
    simpa using stopped
  have step : Finds s.next (c :: cs)
      (s.position.after (s.lookahead.stretch isBlank s.feed).taken) := by
    rw [← rest, next]
    simp only [first]
    by_cases letter : c.isAlpha = true
    · rw [if_pos letter]
      exact (finds_word letter).of_pulled _
    · rw [if_neg letter]
      exact (finds_sign notBlank (by simpa using letter)).of_pulled _
  exact ⟨blanks.trans step.sightings, step.token, step.position.trans position.symm⟩

/-- The lexemes are the sightings of the characters before the first refusal, and the end of the
input after all of them. -/
theorem sightings_lexemes (s : Scanner) :
    s.lexemes.map Lexeme.sighting =
      Text.sightings s.characters s.position ++
        [⟨.endOfInput, s.position.after s.characters⟩] := by
  fun_induction Scanner.lexemes s with
  | case1 s step atEnd =>
      have finished : s.characters.dropWhile isBlank = [] := by
        apply Classical.byContradiction
        intro more
        exact (finds_next s more).token atEnd
      have nothing : Text.sightings s.characters s.position = [] := by
        rw [← Text.sightings_dropWhile_isBlank, finished, Text.sightings_nil]
      rw [nothing, List.map_singleton, List.nil_append]
      exact congrArg (fun sighting => [sighting]) (next_of_over s finished)
  | case2 s step notEnd ih =>
      have more : s.characters.dropWhile isBlank ≠ [] := by
        intro finished
        exact notEnd (congrArg Sighting.token (next_of_over s finished))
      obtain ⟨sightings, _, position⟩ := finds_next s more
      rw [List.map_cons, ih, sightings, position, List.cons_append]

end Scanner

/-- The lexemes of a text. -/
theorem Text.sightings_lexemes (text : String) :
    (Scanner.start (text.toList.map some)).lexemes.map Lexeme.sighting =
      sightings text.toList .first ++ [⟨.endOfInput, Position.first.after text.toList⟩] := by
  have law := (Scanner.start (text.toList.map some)).sightings_lexemes
  rwa [Scanner.characters, Scanner.start, Lookahead.characters, Feed.characters_map_some] at law

end FormulaReader
