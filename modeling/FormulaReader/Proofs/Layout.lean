import FormulaReader.Proofs.Input
import FormulaReader.Proofs.Words

/-!
Layouts: a text is its tokens, as they are written, with blanks before, between and after them.
Words are not followed by further letters and digits, and the two characters of a connective are
not taken apart; under these two rules there is just one layout for each text, and the scanner
finds its tokens where they stand.
-/

namespace FormulaReader

/-! ## Tokens in a text -/

theorem Connective.ofGlyph?_eq_none_iff {first : Char} {second : Option Char} :
    ofGlyph? first second = none ↔
      (first = '/' → second ≠ some '\\') ∧ (first = '\\' → second ≠ some '/') := by
  constructor
  · intro noGlyph
    constructor
    · rintro rfl rfl
      cases noGlyph
    · rintro rfl rfl
      cases noGlyph
  · rintro ⟨noConjunction, noDisjunction⟩
    unfold ofGlyph?
    split
    · exact absurd rfl (noConjunction rfl)
    · exact absurd rfl (noDisjunction rfl)
    · rfl

namespace Token

/-- The characters that the token is written with. There are none for the end of the input. -/
def characters : Token → List Char
  | .endOfInput => []
  | .define => "def".toList
  | .quantifier kind => kind.keyword.toList
  | .connective kind => kind.glyph.toList
  | .identifier name => name.toList
  | .symbol character => [character]

/-- The token can stand in a text where `rest` comes right after it. -/
def StandsBefore (rest : List Char) : Token → Prop
  | .endOfInput => False
  | .define => Text.Apart rest
  | .quantifier _ => Text.Apart rest
  | .connective _ => True
  | .identifier name => Text.isName name = true ∧ Text.Apart rest
  | .symbol character =>
      isBlank character = false ∧ character.isAlpha = false ∧
        (character = '/' → rest.head? ≠ some '\\') ∧ (character = '\\' → rest.head? ≠ some '/')

theorem ofWord_of_isName {word : String} (named : Text.isName word = true) :
    ofWord word = .identifier word := by
  obtain ⟨_, unreserved⟩ := Bool.and_eq_true_iff.mp named
  have noKeyword : word ≠ "def" ∧ word ≠ "forall" ∧ word ≠ "exists" := by
    simpa using unreserved
  simp [ofWord, noKeyword]

theorem ofWord_keyword (kind : Quantifier) : ofWord kind.keyword = .quantifier kind := by
  cases kind <;> rfl

theorem characters_ofWord (word : String) : (ofWord word).characters = word.toList := by
  rw [ofWord]
  split
  · next same => rw [same, characters]
  · split
    · next same => rw [same, characters, Quantifier.keyword]
    · split
      · next same => rw [same, characters, Quantifier.keyword]
      · rw [characters]

theorem standsBefore_ofWord {word : String} {rest : List Char}
    (shaped : Text.isWord word = true)
    (apart : Text.Apart rest) :
    (ofWord word).StandsBefore rest := by
  rw [ofWord]
  split
  · exact apart
  · split
    · exact apart
    · split
      · exact apart
      · next notDef notForall notExists =>
          refine ⟨?_, apart⟩
          rw [Text.isName, shaped]
          simp [notDef, notForall, notExists]

theorem StandsBefore.ne_endOfInput {token : Token} {rest : List Char}
    (stands : token.StandsBefore rest) :
    token ≠ .endOfInput := by
  rintro rfl
  exact stands

/-- A token that can stand where it does is the one that is sighted there. -/
theorem StandsBefore.sightings {token : Token} {rest : List Char} (p : Position)
    (stands : token.StandsBefore rest) :
    Text.sightings (token.characters ++ rest) p =
      ⟨token, p⟩ :: Text.sightings rest (p.after token.characters) := by
  cases token with
  | endOfInput => cases stands
  | define => exact Text.sightings_isWord p (by decide) stands
  | quantifier kind =>
      have shaped : Text.isWord kind.keyword = true := by
        cases kind <;> decide
      rw [characters, Text.sightings_isWord p shaped stands, ofWord_keyword]
  | connective kind => exact Text.sightings_glyph kind rest p
  | identifier name =>
      obtain ⟨named, apart⟩ := stands
      have shaped := (Bool.and_eq_true_iff.mp named).1
      rw [characters, Text.sightings_isWord p shaped apart, ofWord_of_isName named]
  | symbol character =>
      obtain ⟨notBlank, notLetter, noGlyph⟩ := stands
      have alone := Connective.ofGlyph?_eq_none_iff.mpr noGlyph
      exact Text.sightings_symbol p notBlank notLetter alone

theorem StandsBefore.exists_cons {token : Token} {rest : List Char}
    (stands : token.StandsBefore rest) :
    ∃ first later, token.characters = first :: later ∧ isBlank first = false := by
  cases token with
  | endOfInput => cases stands
  | define => exact ⟨'d', ['e', 'f'], rfl, rfl⟩
  | quantifier kind =>
      cases kind with
      | universal => exact ⟨'f', "orall".toList, by decide, rfl⟩
      | existential => exact ⟨'e', "xists".toList, by decide, rfl⟩
  | connective kind =>
      cases kind with
      | and => exact ⟨'/', ['\\'], rfl, rfl⟩
      | or => exact ⟨'\\', ['/'], rfl, rfl⟩
  | identifier name =>
      obtain ⟨named, _⟩ := stands
      have shaped := (Bool.and_eq_true_iff.mp named).1
      rw [Text.isWord] at shaped
      split at shaped
      · cases shaped
      · next first later letters =>
          obtain ⟨letter, _⟩ := Bool.and_eq_true_iff.mp shaped
          exact ⟨first, later, letters, Text.not_isBlank_of_isAlpha letter⟩
  | symbol character =>
      exact ⟨character, [], rfl, stands.1⟩

end Token

/-- Where a text goes on with something other than a blank, some token stands. -/
theorem Text.exists_standsBefore {first : Char} (later : List Char)
    (notBlank : isBlank first = false) :
    ∃ (token : Token) (rest : List Char), first :: later = token.characters ++ rest ∧
      token.StandsBefore rest := by
  by_cases letter : first.isAlpha = true
  · have apart : Apart (later.dropWhile Char.isAlphanum) := by
      intro c head
      have stopped := List.head?_dropWhile_not Char.isAlphanum later
      rw [Option.mem_def.mp head] at stopped
      simpa using stopped
    have shaped : isWord (String.ofList (first :: later.takeWhile Char.isAlphanum)) = true := by
      simp [isWord, letter]
    refine ⟨_, _, ?_, Token.standsBefore_ofWord shaped apart⟩
    rw [Token.characters_ofWord, String.toList_ofList, List.cons_append,
      List.takeWhile_append_dropWhile]
  · have notLetter : first.isAlpha = false := by simpa using letter
    cases glyph : Connective.ofGlyph? first later.head? with
    | none =>
        exact ⟨.symbol first, later, rfl, notBlank, notLetter,
          Connective.ofGlyph?_eq_none_iff.mp glyph⟩
    | some kind =>
        obtain ⟨second, found, letters⟩ := Scanner.ofGlyph?_eq_some glyph
        obtain ⟨rest, rfl⟩ := List.head?_eq_some_iff.mp found
        refine ⟨.connective kind, rest, ?_, trivial⟩
        rw [Token.characters, letters]
        rfl

/-! ## Positions -/

namespace Position

/-- The position right behind `cs`: its line is the number of line breaks among them, and its
column the number of characters behind the last one, both counted from one. -/
def behind (cs : List Char) : Position :=
  ⟨1 + cs.count '\n', 1 + (cs.reverse.takeWhile (· ≠ '\n')).length⟩

theorem behind_concat (cs : List Char) (c : Char) : behind (cs ++ [c]) = (behind cs).next c := by
  by_cases broken : c = '\n'
  · simp [behind, next, broken, Nat.add_assoc]
  · simp [behind, next, broken, Nat.add_assoc]

theorem behind_append (cs ds : List Char) : behind (cs ++ ds) = (behind cs).after ds := by
  induction ds generalizing cs with
  | nil => rw [List.append_nil, after_nil]
  | cons d ds ih =>
      rw [after_cons, ← behind_concat, ← ih, List.append_assoc, List.singleton_append]

theorem first_after (cs : List Char) : first.after cs = behind cs :=
  (behind_append [] cs).symm

/-- In a text the position comes earlier than the other. -/
def Before (p q : Position) : Prop :=
  p.line < q.line ∨ p.line = q.line ∧ p.column < q.column

theorem Before.ne {p q : Position} (earlier : p.Before q) : p ≠ q := by
  rintro rfl
  rcases earlier with line | ⟨_, column⟩
  · exact Nat.lt_irrefl _ line
  · exact Nat.lt_irrefl _ column

theorem Before.trans {p q r : Position} (first : p.Before q) (second : q.Before r) :
    p.Before r := by
  unfold Before at first second ⊢
  omega

theorem before_next (p : Position) (c : Char) : p.Before (p.next c) := by
  by_cases broken : c = '\n'
  · rw [next, if_pos broken]
    exact .inl (Nat.lt_succ_self _)
  · rw [next, if_neg broken]
    exact .inr ⟨rfl, Nat.lt_succ_self _⟩

theorem before_after (p : Position) (c : Char) (cs : List Char) :
    p.Before (p.after (c :: cs)) := by
  induction cs generalizing p c with
  | nil => exact before_next p c
  | cons d cs ih =>
      rw [after_cons]
      exact (before_next p c).trans (ih (p.next c) d)

end Position

/-! ## Layouts -/

/-- A text as a sequence of tokens with blanks around them. -/
inductive Layout where
  | finish (blanks : List Char)
  | token (blanks : List Char) (token : Token) (later : Layout)

namespace Layout

/-- The text that is laid out. -/
def characters : Layout → List Char
  | finish blanks => blanks
  | token blanks t later => blanks ++ (t.characters ++ later.characters)

/-- The blanks are blanks, and each token can stand before all that comes after it. -/
def Proper : Layout → Prop
  | finish blanks => ∀ c ∈ blanks, isBlank c = true
  | token blanks t later =>
      (∀ c ∈ blanks, isBlank c = true) ∧ t.StandsBefore later.characters ∧ later.Proper

/-- The tokens with their positions, where `before` comes before the layout. -/
def sightingsBehind (before : List Char) : Layout → List Sighting
  | finish _ => []
  | token blanks t later =>
      ⟨t, .behind (before ++ blanks)⟩ ::
        later.sightingsBehind (before ++ blanks ++ t.characters)

/-- The tokens with their positions. -/
def sightings (layout : Layout) : List Sighting :=
  layout.sightingsBehind []

end Layout

theorem Text.sightings_blanks {blanks : List Char} (rest : List Char) (p : Position)
    (blank : ∀ c ∈ blanks, isBlank c = true) :
    sightings (blanks ++ rest) p = sightings rest (p.after blanks) := by
  induction blanks generalizing p with
  | nil => rfl
  | cons c blanks ih =>
      have laterBlank : ∀ d ∈ blanks, isBlank d = true := by
        intro d member
        exact blank d (List.mem_cons_of_mem c member)
      rw [List.cons_append, sightings_blank _ p (blank c List.mem_cons_self), ih _ laterBlank,
        Position.after_cons]

namespace Layout

variable {layout other later : Layout} {blanks : List Char} {t : Token}

theorem sightings_finish (p : Position) (blank : ∀ c ∈ blanks, isBlank c = true) :
    Text.sightings blanks p = [] := by
  have found := Text.sightings_blanks [] p blank
  rw [List.append_nil, Text.sightings_nil] at found
  exact found

theorem sightings_token (p : Position) (proper : (token blanks t later).Proper) :
    Text.sightings (token blanks t later).characters p =
      ⟨t, p.after blanks⟩ ::
        Text.sightings later.characters ((p.after blanks).after t.characters) := by
  obtain ⟨blank, stands, _⟩ := proper
  rw [characters, Text.sightings_blanks _ p blank, stands.sightings]

theorem sightings_behind (before : List Char) (proper : layout.Proper) :
    Text.sightings layout.characters (.behind before) = layout.sightingsBehind before := by
  induction layout generalizing before with
  | finish blanks => exact sightings_finish _ proper
  | token blanks t later ih =>
      rw [sightings_token _ proper, ← Position.behind_append, ← Position.behind_append,
        ih _ proper.2.2, sightingsBehind]

/-- The scanner finds the tokens of a proper layout at their positions. -/
theorem sightings_eq (proper : layout.Proper) :
    Text.sightings layout.characters .first = layout.sightings :=
  sightings_behind [] proper

theorem exists_standsBefore_of_mem {before : List Char} (proper : layout.Proper) :
    ∀ s ∈ layout.sightingsBehind before, ∃ rest, s.token.StandsBefore rest := by
  induction layout generalizing before with
  | finish blanks => simp [sightingsBehind]
  | token blanks t later ih =>
      obtain ⟨_, stands, laterProper⟩ := proper
      intro s member
      rcases List.mem_cons.mp member with rfl | inLater
      · exact ⟨later.characters, stands⟩
      · exact ih laterProper s inLater

/-- Nothing is sighted before the layout begins. -/
theorem exists_behind_of_mem {before : List Char} :
    ∀ s ∈ layout.sightingsBehind before, ∃ cs, s.start = .behind (before ++ cs) := by
  induction layout generalizing before with
  | finish blanks => simp [sightingsBehind]
  | token blanks t later ih =>
      intro s member
      rcases List.mem_cons.mp member with rfl | inLater
      · exact ⟨blanks, rfl⟩
      · obtain ⟨cs, start⟩ := ih s inLater
        refine ⟨blanks ++ (t.characters ++ cs), ?_⟩
        rw [start, List.append_assoc, List.append_assoc]

/-- No two tokens stand at the same place, nor one at the end. -/
theorem pairwise_sightingsBehind (before : List Char) (proper : layout.Proper) :
    List.Pairwise (fun (s u : Sighting) => s.start.Before u.start)
      (layout.sightingsBehind before ++
        [⟨.endOfInput, .behind (before ++ layout.characters)⟩]) := by
  induction layout generalizing before with
  | finish blanks => exact List.pairwise_singleton _ _
  | token blanks t later ih =>
      obtain ⟨_, stands, laterProper⟩ := proper
      obtain ⟨first, rest, letters, _⟩ := stands.exists_cons
      have earlier : ∀ cs, (Position.behind (before ++ blanks)).Before
          (.behind (before ++ blanks ++ t.characters ++ cs)) := by
        intro cs
        rw [List.append_assoc _ t.characters, Position.behind_append (before ++ blanks), letters,
          List.cons_append]
        exact Position.before_after _ first _
      have same : before ++ (token blanks t later).characters =
          before ++ blanks ++ t.characters ++ later.characters := by
        rw [characters]
        simp only [List.append_assoc]
      rw [sightingsBehind, same, List.cons_append]
      apply List.pairwise_cons.mpr
      refine ⟨?_, ih _ laterProper⟩
      intro u member
      rcases List.mem_append.mp member with inLater | atEnd
      · obtain ⟨cs, start⟩ := exists_behind_of_mem u inLater
        rw [start]
        exact earlier cs
      · rw [List.mem_singleton.mp atEnd]
        exact earlier later.characters

theorem exists_proper (cs : List Char) :
    ∃ layout : Layout, layout.Proper ∧ layout.characters = cs := by
  induction size : cs.length using Nat.strongRecOn generalizing cs with
  | ind n ih =>
      have parts := List.takeWhile_append_dropWhile (p := isBlank) (l := cs)
      have blank : ∀ c ∈ cs.takeWhile isBlank, isBlank c = true :=
        List.all_eq_true.mp List.all_takeWhile
      cases left : cs.dropWhile isBlank with
      | nil =>
          rw [left, List.append_nil] at parts
          exact ⟨finish (cs.takeWhile isBlank), blank, parts⟩
      | cons first rest =>
          have notBlank : isBlank first = false := by
            have stopped := List.head?_dropWhile_not isBlank cs
            rw [left] at stopped
            simpa using stopped
          obtain ⟨t, later, shape, stands⟩ := Text.exists_standsBefore rest notBlank
          obtain ⟨_, _, letters, _⟩ := stands.exists_cons
          have shorter : later.length < n := by
            rw [← size, ← parts, left, shape, letters]
            simp only [List.length_append, List.length_cons]
            omega
          obtain ⟨layout, proper, rfl⟩ := ih later.length shorter later rfl
          refine ⟨token (cs.takeWhile isBlank) t layout, ⟨blank, stands, proper⟩, ?_⟩
          rw [characters, ← shape, ← left, parts]

theorem takeWhile_isBlank_token (proper : (token blanks t later).Proper) :
    (token blanks t later).characters.takeWhile isBlank = blanks := by
  obtain ⟨blank, stands, _⟩ := proper
  obtain ⟨first, rest, letters, notBlank⟩ := stands.exists_cons
  rw [characters, List.takeWhile_append_of_pos blank, letters, List.cons_append,
    List.takeWhile_cons_of_neg (by simp [notBlank]), List.append_nil]

/-- A text has no more than one proper layout: the scanner sees the same first token, and what is
left of the text is the same. -/
theorem eq_of_characters_eq (proper : layout.Proper) (otherProper : other.Proper)
    (same : layout.characters = other.characters) :
    layout = other := by
  have sameSightings : Text.sightings layout.characters .first =
      Text.sightings other.characters .first := by
    rw [same]
  induction layout generalizing other with
  | finish blanks =>
      cases other with
      | finish otherBlanks => exact congrArg finish same
      | token otherBlanks u otherLater =>
          have nothing : Text.sightings (finish blanks).characters .first = [] :=
            sightings_finish _ proper
          rw [nothing, sightings_token _ otherProper] at sameSightings
          cases sameSightings
  | token blanks t later ih =>
      cases other with
      | finish otherBlanks =>
          have nothing : Text.sightings (finish otherBlanks).characters .first = [] :=
            sightings_finish _ otherProper
          rw [nothing, sightings_token _ proper] at sameSightings
          cases sameSightings
      | token otherBlanks u otherLater =>
          have sameBlanks : blanks = otherBlanks := by
            rw [← takeWhile_isBlank_token proper, same, takeWhile_isBlank_token otherProper]
          rw [sightings_token _ proper, sightings_token _ otherProper] at sameSightings
          have sameToken : t = u := congrArg Sighting.token (List.cons.inj sameSightings).1
          subst sameBlanks sameToken
          have sameRest := List.append_cancel_left (List.append_cancel_left same)
          have sameLater := ih proper.2.2 otherProper.2.2 sameRest (by rw [sameRest])
          rw [sameLater]

end Layout

/-- The identifiers among the tokens of a text are names. -/
theorem Text.isName_of_mem_tokensOf {cs : List Char} {x : String}
    (member : .identifier x ∈ tokensOf cs) :
    isName x = true := by
  obtain ⟨layout, proper, spelled⟩ := Layout.exists_proper cs
  rw [tokensOf, ← spelled, Layout.sightings_eq proper] at member
  obtain ⟨s, sighted, same⟩ := List.mem_map.mp member
  obtain ⟨rest, stands⟩ := Layout.exists_standsBefore_of_mem proper s sighted
  rw [same] at stands
  exact stands.1

theorem Text.isName_of_mem_tokens {source x : String} (member : .identifier x ∈ tokens source) :
    isName x = true := by
  rw [tokens_eq] at member
  exact isName_of_mem_tokensOf member

/-- The lexemes of an input start at different positions, one behind the other. -/
theorem Scanner.pairwise_lexemes (feed : Feed) :
    (Scanner.start feed).lexemes.Pairwise fun lexeme other => lexeme.start.Before other.start := by
  obtain ⟨layout, proper, spelled⟩ := Layout.exists_proper feed.characters
  have sighted : (Scanner.start feed).lexemes.map Lexeme.sighting =
      Text.sightings feed.characters .first ++
        [⟨.endOfInput, Position.first.after feed.characters⟩] :=
    (Scanner.start feed).sightings_lexemes
  have ordered := Layout.pairwise_sightingsBehind [] proper
  rw [← Layout.sightings, ← Layout.sightings_eq proper, spelled, List.nil_append,
    ← Position.first_after, ← sighted] at ordered
  have mapped := List.pairwise_map.mp ordered
  exact mapped

/-- Every text has exactly one proper layout. Its lexemes are the tokens of that layout where they
stand, and the end of the input after them, at the end of the text. -/
theorem Scanner.lexemes_eq_sightings_of_layout (source : String) :
    ∃ layout : Layout, layout.Proper ∧ layout.characters = source.toList ∧
      (∀ other : Layout, other.Proper → other.characters = source.toList → other = layout) ∧
      (Scanner.start (source.toList.map some)).lexemes.map Lexeme.sighting =
        layout.sightings ++ [⟨.endOfInput, .behind source.toList⟩] ∧
      ∀ s ∈ layout.sightings, s.token ≠ .endOfInput := by
  obtain ⟨layout, proper, spelled⟩ := Layout.exists_proper source.toList
  refine ⟨layout, proper, spelled, ?_, ?_, ?_⟩
  · intro other otherProper otherSpelled
    exact Layout.eq_of_characters_eq otherProper proper (otherSpelled.trans spelled.symm)
  · rw [Text.sightings_lexemes, Position.first_after, ← Layout.sightings_eq proper, spelled]
  · intro s member
    obtain ⟨rest, stands⟩ := Layout.exists_standsBefore_of_mem proper s member
    exact stands.ne_endOfInput

/-- A connective is read from left to right: what follows it may look like the end of another. -/
example : (Scanner.start ("a/\\/b".toList.map some)).lexemes.map Lexeme.sighting =
    [⟨.identifier "a", ⟨1, 1⟩⟩, ⟨.connective .and, ⟨1, 2⟩⟩, ⟨.symbol '/', ⟨1, 4⟩⟩,
      ⟨.identifier "b", ⟨1, 5⟩⟩, ⟨.endOfInput, ⟨1, 6⟩⟩] := by
  decide +kernel

end FormulaReader
