import FormulaReader.Proofs.Calls
import FormulaReader.Proofs.Turns

/-!
Pulling: the source of characters is asked for no more than has to be known. After a connective
nothing beyond it has been pulled, after any other token one answer, and nothing after the first
refusal. This is so however the scanner is called, also through a parser or a session.
-/

namespace FormulaReader

/-! ## What the lookahead holds -/

namespace Feed

theorem rest_stretch (inClass : Char → Bool) (feed : Feed) :
    (stretch inClass feed).rest = feed.drop (stretch inClass feed).pulled.length := by
  fun_induction stretch inClass feed with
  | case1 => rfl
  | case2 => rfl
  | case3 c rest inside further ih => exact ih
  | case4 => rfl

end Feed

namespace Lookahead

def answers : Lookahead → List (Option Char)
  | .unread => []
  | .read answer => [answer]

/-- The lookahead holds the next answer, or nothing. -/
theorem answers_prefix (lookahead : Lookahead) (feed : Feed) :
    lookahead.answers <+: (lookahead.characters feed).map some ++ [none] := by
  cases lookahead with
  | unread => exact List.nil_prefix
  | read answer =>
      cases answer with
      | none => exact List.prefix_refl _
      | some c => exact List.prefix_append [some c] _

/-- What was pulled is what was taken and the answer that stopped the stretch. -/
theorem stretch_pulled (lookahead : Lookahead) (inClass : Char → Bool) (feed : Feed) :
    lookahead.answers ++ (lookahead.stretch inClass feed).pulled =
      (lookahead.stretch inClass feed).taken.map some ++
        [(lookahead.stretch inClass feed).stop] := by
  have further := Feed.stretch_pulled inClass feed
  cases lookahead with
  | unread => exact further
  | read answer =>
      cases answer with
      | none => rfl
      | some c =>
          by_cases inside : inClass c = true
          · simp only [stretch, inside, if_true, Stretch.push]
            exact congrArg (some c :: ·) further
          · simp [stretch, inside, answers]

theorem rest_stretch (lookahead : Lookahead) (inClass : Char → Bool) (feed : Feed) :
    (lookahead.stretch inClass feed).rest =
      feed.drop (lookahead.stretch inClass feed).pulled.length := by
  have further := Feed.rest_stretch inClass feed
  cases lookahead with
  | unread => exact further
  | read answer =>
      cases answer with
      | none => rfl
      | some c =>
          by_cases inside : inClass c = true
          · simp only [stretch, inside, if_true, Stretch.push]
            exact further
          · simp [stretch, inside]

end Lookahead

/-! ## One call -/

/-- How many answers beyond the token have to be known to tell that it ends. -/
def Token.lookahead : Token → Nat
  | .connective _ => 0
  | _ => 1

namespace Scanner

variable {s : Scanner}

/-- A step that finds a token behind `blanks`. The lookahead and what is pulled are the characters
through the last one of the token, and the next lookahead. -/
structure Takes (s : Scanner) (step : Lexeme × Scanner) (blanks : List Char) : Prop where
  start : step.1.start = s.position.after blanks
  position : step.2.position = s.position.after (blanks ++ step.1.token.characters)
  characters : s.characters = blanks ++ (step.1.token.characters ++ step.2.characters)
  pulled : s.lookahead.answers ++ step.1.pulled =
    (blanks ++ step.1.token.characters).map some ++ step.2.lookahead.answers
  lookahead : step.2.lookahead.answers.length = step.1.token.lookahead
  feed : step.2.feed = s.feed.drop step.1.pulled.length

theorem takes_word {c : Char} {p : Position} {feed : Feed} :
    Takes ⟨.read (some c), p, feed⟩ (word c p feed) [] := by
  obtain ⟨taken, _, left⟩ := Feed.stretch_characters Char.isAlphanum feed
  have further := Feed.stretch_pulled Char.isAlphanum feed
  have letters : (word c p feed).1.token.characters =
      c :: (Feed.stretch Char.isAlphanum feed).taken := by
    rw [word, Token.characters_ofWord, String.toList_ofList]
  refine ⟨rfl, ?_, ?_, ?_, ?_, Feed.rest_stretch Char.isAlphanum feed⟩
  · rw [letters]
    rfl
  · have before : (word c p feed).2.characters = feed.characters.dropWhile Char.isAlphanum := left
    rw [letters, before, taken]
    exact congrArg (c :: ·) List.takeWhile_append_dropWhile.symm
  · rw [letters]
    exact congrArg (some c :: ·) further
  · have word : ∀ w, (Token.ofWord w).lookahead = 1 := by
      intro w
      rw [Token.ofWord]
      repeat' split
      all_goals rfl
    exact (word _).symm

theorem takes_sign {c : Char} {p : Position} {feed : Feed} :
    Takes ⟨.read (some c), p, feed⟩ (sign c p feed) [] := by
  have rest : feed.pull.2 = feed.drop 1 := by
    cases feed <;> rfl
  cases glyph : Connective.ofGlyph? c feed.pull.1 with
  | none =>
      obtain ⟨_, ahead, _⟩ := Feed.pull_characters feed
      rw [sign_of_none glyph]
      exact ⟨rfl, rfl, congrArg (c :: ·) ahead.symm, rfl, rfl, rest⟩
  | some kind =>
      obtain ⟨d, pulled, letters, all⟩ := exists_glyph_of_some glyph
      have written : (Token.connective kind).characters = [c, d] := letters
      rw [sign_of_some glyph]
      refine ⟨rfl, rfl, ?_, ?_, rfl, rest⟩
      · rw [written]
        exact congrArg (c :: ·) all
      · rw [written, pulled]
        rfl

theorem takes_next (notEnd : s.next.1.token ≠ .endOfInput) : ∃ blanks, s.Takes s.next blanks := by
  obtain ⟨taken, _, left⟩ := s.lookahead.stretch_characters isBlank s.feed
  have pulled := s.lookahead.stretch_pulled isBlank s.feed
  cases stop : (s.lookahead.stretch isBlank s.feed).stop with
  | none =>
      rw [next_of_stop stop] at notEnd
      exact absurd rfl notEnd
  | some c =>
      rw [stop] at left pulled
      have before : ∃ step : Lexeme × Scanner,
          s.next = ({ step.1 with
            pulled := (s.lookahead.stretch isBlank s.feed).pulled ++ step.1.pulled }, step.2) ∧
          Takes ⟨.read (some c), s.position.after (s.lookahead.stretch isBlank s.feed).taken,
            (s.lookahead.stretch isBlank s.feed).rest⟩ step [] := by
        by_cases letter : c.isAlpha = true
        · exact ⟨_, by simp only [next, stop, letter, if_true], takes_word⟩
        · exact ⟨_, by simp only [next, stop, if_neg letter], takes_sign⟩
      obtain ⟨step, shape, takes⟩ := before
      rw [shape]
      refine ⟨(s.lookahead.stretch isBlank s.feed).taken, takes.start, ?_, ?_, ?_,
        takes.lookahead, ?_⟩
      · rw [Position.after_append]
        exact takes.position
      · have rest : (s.lookahead.characters s.feed).dropWhile isBlank =
            step.1.token.characters ++ step.2.characters := left.symm.trans takes.characters
        rw [taken, ← rest]
        exact List.takeWhile_append_dropWhile.symm
      · have token : some c :: step.1.pulled =
            step.1.token.characters.map some ++ step.2.lookahead.answers := takes.pulled
        rw [← List.append_assoc, pulled, List.append_assoc, List.singleton_append, token,
          List.map_append, List.append_assoc]
      · rw [List.length_append, ← List.drop_drop, ← s.lookahead.rest_stretch isBlank s.feed]
        exact takes.feed

theorem next_of_atEnd (atEnd : s.next.1.token = .endOfInput) :
    s.next.1.start = s.position.after s.characters ∧
      s.next.2.position = s.position.after s.characters ∧ s.next.2.lookahead = .read none ∧
      s.lookahead.answers ++ s.next.1.pulled = s.characters.map some ++ [none] ∧
      s.next.2.feed = s.feed.drop s.next.1.pulled.length := by
  obtain ⟨stop, taken⟩ := stretch_of_atEnd atEnd
  have pulled := s.lookahead.stretch_pulled isBlank s.feed
  rw [stop, taken] at pulled
  rw [next_of_stop stop, taken]
  exact ⟨rfl, rfl, rfl, pulled, s.lookahead.rest_stretch isBlank s.feed⟩

/-! ## One call after another -/

theorem after_succ (s : Scanner) (k : Nat) : s.after (k + 1) = (s.after k).next.2 := by
  induction k generalizing s with
  | zero => rfl
  | succ k ih => exact ih s.next.2

theorem calls_concat (s : Scanner) (k : Nat) :
    s.calls (k + 1) = s.calls k ++ [(s.after k).next.1] := by
  induction k generalizing s with
  | zero => rfl
  | succ k ih => exact congrArg (s.next.1 :: ·) (ih s.next.2)

/-- The scanner has come through the characters `front` of its source, and has pulled `pulled`. -/
structure Through (source : Feed) (front : List Char) (pulled : List (Option Char)) (s : Scanner) :
    Prop where
  characters : source.characters = front ++ s.characters
  position : s.position = .behind front
  answers : pulled = front.map some ++ s.lookahead.answers
  feed : s.feed = source.drop pulled.length

variable {source : Feed} {front : List Char} {pulled : List (Option Char)}

theorem through_start (source : Feed) : (start source).Through source [] [] :=
  ⟨rfl, rfl, rfl, rfl⟩

theorem Through.token (through : s.Through source front pulled)
    (notEnd : s.next.1.token ≠ .endOfInput) :
    ∃ before, source.characters =
        before ++ (s.next.1.token.characters ++ s.next.2.characters) ∧
      s.next.1.start = .behind before ∧
      s.next.2.lookahead.answers.length = s.next.1.token.lookahead ∧
      s.next.2.Through source (before ++ s.next.1.token.characters)
        (pulled ++ s.next.1.pulled) := by
  obtain ⟨blanks, takes⟩ := takes_next notEnd
  have text : source.characters =
      front ++ blanks ++ (s.next.1.token.characters ++ s.next.2.characters) := by
    rw [through.characters, takes.characters, List.append_assoc]
  refine ⟨front ++ blanks, text, ?_, takes.lookahead, ?_, ?_, ?_, ?_⟩
  · rw [takes.start, through.position, Position.behind_append]
  · rw [text, List.append_assoc (front ++ blanks)]
  · rw [takes.position, through.position, List.append_assoc, Position.behind_append front]
  · rw [through.answers, List.append_assoc, takes.pulled]
    simp only [List.map_append, List.append_assoc]
  · rw [takes.feed, through.feed, List.drop_drop, List.length_append]

theorem Through.atEnd (through : s.Through source front pulled)
    (atEnd : s.next.1.token = .endOfInput) :
    s.next.2.lookahead = .read none ∧
      s.next.2.Through source source.characters (pulled ++ s.next.1.pulled) := by
  obtain ⟨start, position, lookahead, last, feed⟩ := next_of_atEnd atEnd
  have used : s.next.2.characters = [] := by
    rw [Scanner.characters, lookahead]
    rfl
  refine ⟨lookahead, ?_, ?_, ?_, ?_⟩
  · rw [used, List.append_nil]
  · rw [position, through.position, through.characters, Position.behind_append]
  · rw [through.answers, List.append_assoc, last, lookahead, through.characters, List.map_append,
      List.append_assoc]
    rfl
  · rw [feed, through.feed, List.drop_drop, List.length_append]

/-- Any number of calls brings the scanner further through its source. -/
theorem exists_through (source : Feed) (k : Nat) :
    ∃ front, ((start source).after k).Through source front
      (((start source).calls k).flatMap Lexeme.pulled) := by
  induction k with
  | zero => exact ⟨[], through_start source⟩
  | succ k ih =>
      obtain ⟨front, through⟩ := ih
      rw [after_succ, calls_concat, List.flatMap_append, List.flatMap_singleton]
      by_cases atEnd : ((start source).after k).next.1.token = .endOfInput
      · exact ⟨_, (through.atEnd atEnd).2⟩
      · obtain ⟨before, _, _, _, further⟩ := through.token atEnd
        exact ⟨_, further⟩

theorem Through.answers_prefix (through : s.Through source front pulled) :
    pulled <+: source.characters.map some ++ [none] := by
  rw [through.answers, through.characters, List.map_append, List.append_assoc,
    List.prefix_append_right_inj]
  exact s.lookahead.answers_prefix s.feed

/-- The lexemes that calls give are the sightings of the characters, and from then on the end of the
input, always at the same place. -/
theorem sightings_calls (s : Scanner) (k : Nat) :
    (s.calls k).map Lexeme.sighting =
      (Text.sightings s.characters s.position ++
        List.replicate k (Sighting.mk .endOfInput (s.position.after s.characters))).take k := by
  induction k generalizing s with
  | zero => rfl
  | succ k ih =>
      rw [calls, List.map_cons, ih]
      by_cases finished : s.characters.dropWhile isBlank = []
      · have last := next_of_over s finished
        obtain ⟨_, position, lookahead, _⟩ := next_of_atEnd (congrArg Sighting.token last)
        have used : s.next.2.characters = [] := by
          rw [characters, lookahead]
          rfl
        have nothing : Text.sightings s.characters s.position = [] := by
          rw [← Text.sightings_dropWhile_isBlank, finished, Text.sightings_nil]
        rw [last, used, position, nothing, Text.sightings_nil, Position.after_nil]
        simp only [List.nil_append, List.replicate_succ, List.take_succ_cons, List.take_replicate,
          Nat.min_self]
      · obtain ⟨sightings, _, position⟩ := finds_next s finished
        have enough : k ≤ (Text.sightings s.next.2.characters s.next.2.position ++ List.replicate k
            (Sighting.mk .endOfInput (s.position.after s.characters))).length := by
          simp
        rw [sightings, position, List.cons_append, List.take_succ_cons, List.replicate_succ',
          ← List.append_assoc, List.take_append_of_le_length enough]

end Scanner

/-! ## Frugality -/

/-- To read `lexemes` from a source with the characters `cs`, no more was pulled than has to be
known of it. -/
structure Frugal (cs : List Char) (lexemes : List Lexeme) (pulled : List (Option Char)) : Prop where
  /-- The source is not asked again after the first refusal. -/
  answers : pulled <+: cs.map some ++ [none]
  nothing : lexemes = [] → pulled = []
  token : ∀ last ∈ lexemes.getLast?, last.token ≠ .endOfInput → ∃ before after,
    cs = before ++ (last.token.characters ++ after) ∧ last.start = .behind before ∧
      pulled.length = (before ++ last.token.characters).length + last.token.lookahead
  atEnd : ∀ last ∈ lexemes.getLast?, last.token = .endOfInput → pulled.length = cs.length + 1

theorem Scanner.frugal_calls (source : Feed) (k : Nat) :
    Frugal source.characters ((start source).calls k)
      (((start source).calls k).flatMap Lexeme.pulled) := by
  obtain ⟨_, throughAll⟩ := exists_through source k
  cases k with
  | zero =>
      refine ⟨throughAll.answers_prefix, fun _ => rfl, ?_, ?_⟩
      · intro last found
        cases found
      · intro last found
        cases found
  | succ k =>
      obtain ⟨front, through⟩ := exists_through source k
      rw [calls_concat, List.flatMap_append, List.flatMap_singleton] at throughAll ⊢
      refine ⟨throughAll.answers_prefix, by simp, ?_, ?_⟩
      · intro last found notEnd
        rw [List.getLast?_concat] at found
        cases found
        obtain ⟨before, text, start, lookahead, further⟩ := through.token notEnd
        refine ⟨before, _, text, start, ?_⟩
        rw [further.answers, List.length_append, lookahead, List.length_map]
      · intro last found atEnd
        rw [List.getLast?_concat] at found
        cases found
        obtain ⟨lookahead, further⟩ := through.atEnd atEnd
        rw [further.answers, lookahead, List.length_append, List.length_map]
        rfl

/-! ## Sessions -/

namespace Reporting

variable {α β : Type} {c d e : Cursor}

/-- Whatever the sink is, work from `c` on reads along a path, and if the sink does not fail, it
ends at `d`. -/
def ReadsTo (c : Cursor) (m : Reporting α) (d : Cursor) : Prop :=
  ∀ sink, ∃ events last, c.Path events last ∧ Event.lexemes (m sink).events = Event.lexemes events ∧
    ∀ a, (m sink).result = .ok a → last = d

/-- The work reads nothing. -/
def Silent (m : Reporting α) : Prop :=
  ∀ sink, Event.lexemes (m sink).events = []

theorem Silent.readsTo {m : Reporting α} (silent : Silent m) : ReadsTo c m c := by
  intro sink
  exact ⟨[], c, .stay, silent sink, fun _ _ => rfl⟩

theorem readsTo_pure (a : α) : ReadsTo c (pure a) c :=
  Silent.readsTo fun _ => rfl

theorem readsTo_record {events : List Event} (path : c.Path events d) :
    ReadsTo c (Activity.record events) d := by
  intro sink
  exact ⟨events, d, path, rfl, fun _ _ => rfl⟩

theorem ReadsTo.bind {m : Reporting α} {next : α → Reporting β}
    (first : ReadsTo c m d)
    (second : ∀ a, ReadsTo d (next a) e) :
    ReadsTo c (m >>= next) e := by
  intro sink
  obtain ⟨events, last, path, same, reached⟩ := first sink
  rw [Activity.bind_apply]
  cases shape : m sink with
  | mk result later written =>
      rw [shape] at same reached
      cases result with
      | error fault =>
          refine ⟨events, last, path, same, ?_⟩
          intro b impossible
          cases impossible
      | ok a =>
          obtain rfl := reached a rfl
          obtain ⟨more, final, further, alsoSame, ended⟩ := second a later
          refine ⟨events ++ more, final, path.trans further, ?_, ended⟩
          rw [Activity.andThen_ok, Outcome.events_after, Event.lexemes_append,
            Event.lexemes_append, same, alsoSame]

theorem ReadsTo.map {m : Reporting α} (f : α → β) (reads : ReadsTo c m d) :
    ReadsTo c (f <$> m) d := by
  rw [map_eq_pure_bind]
  exact reads.bind fun _ => readsTo_pure _

theorem readsTo_flush : ReadsTo c flush c := by
  apply Silent.readsTo
  intro sink
  rw [flush]
  split <;> rfl

theorem readsTo_writeBytes (bytes : List UInt8) : ReadsTo c (writeBytes bytes) c := by
  induction bytes with
  | nil => exact readsTo_pure ()
  | cons byte rest ih =>
      have first : Silent (writeByte byte) := by
        intro sink
        rw [writeByte]
        split <;> rfl
      exact first.readsTo.bind fun _ => ih

end Reporting

open Reporting

namespace Session

variable {c : Cursor}

theorem readsTo_ask (options : SessionOptions) : ReadsTo c (ask options) c := by
  rw [ask]
  cases options.prompt with
  | none => exact readsTo_pure ()
  | some prompt => exact (readsTo_writeBytes _).bind fun _ => readsTo_flush

theorem exists_readsTo_turns (table : Precedence) (options : SessionOptions) (c : Cursor) :
    ∃ d, ReadsTo c (turns table options c) d := by
  -- What is read in a turn is the same for every sink. A sink that fails ends the session early.
  fun_induction Turn.all table options.expressions c with
  | case1 c atEnd =>
      refine ⟨c, ?_⟩
      rw [turns, if_pos atEnd]
      exact (readsTo_ask options).bind fun _ => readsTo_pure []
  | case2 c notEnd found ih =>
      obtain ⟨d, later⟩ := ih
      refine ⟨d, ?_⟩
      rw [turns, if_neg notEnd]
      apply (readsTo_ask options).bind
      intro _
      apply (readsTo_record (Turn.path_read table options.expressions c)).bind
      intro _
      apply (readsTo_writeBytes _).bind
      intro _
      apply (readsTo_record (found.turn.close.path found.cursor)).bind
      intro _
      exact later.map _

/-- A session, whatever its sink is, reads on. -/
theorem exists_readsTo_run (table : Precedence) (options : SessionOptions) (c : Cursor) :
    ∃ d, ReadsTo c (run table options c) d := by
  obtain ⟨d, reads⟩ := exists_readsTo_turns table options c.advance
  refine ⟨d, ?_⟩
  have moved : c.Path [.read c.advance.current] c.advance := .advance .stay
  rw [run]
  apply (readsTo_ask options).bind
  intro _
  apply (readsTo_record moved).bind
  intro _
  apply reads.bind
  intro found
  apply (readsTo_record (.note _ .stay)).bind
  intro _
  exact readsTo_flush.bind fun _ => readsTo_pure _

end Session

/-- What reads along a path from in front of a source reads what calls of the scanner give. -/
theorem frugal_of_path {source : Feed} {events trail : List Event} {last : Cursor}
    (path : (Cursor.ofFeed source).Path trail last)
    (same : Event.lexemes events = Event.lexemes trail) :
    ∃ k, Event.lexemes events = (Scanner.start source).calls k ∧
      Frugal source.characters (Event.lexemes events) (events.flatMap Event.pulled) := by
  obtain ⟨calls, _⟩ := path.lexemes_eq
  rw [← same] at calls
  refine ⟨_, calls, ?_⟩
  rw [Event.flatMap_pulled, calls]
  exact Scanner.frugal_calls source _

/-- The source of characters is asked for no more than has to be known, by whatever is read from it:
by the scanner itself, by a parser through any calls, or by a session with any sink and options,
also after such calls. The lexemes are those of the one layout that the characters before the first
refusal have, and then the end of the input, always at the same place. After a connective that ends
with the `j`-th character, `j` answers have been pulled, after any other token `j + 1`, and at the
end one more than there are characters. -/
theorem reads_frugally (source : Feed) (table : Precedence) :
    ∃ layout : Layout, layout.Proper ∧ layout.characters = source.characters ∧
      (∀ k, let lexemes := (Scanner.start source).calls k
        let pulled := lexemes.flatMap Lexeme.pulled
        lexemes.map Lexeme.sighting = (layout.sightings ++
          List.replicate k (Sighting.mk .endOfInput (.behind source.characters))).take k ∧
        Frugal source.characters lexemes pulled ∧
        ((Scanner.start source).after k).feed = source.drop pulled.length) ∧
      (∀ calls : List Call, let events := (Call.readAll table calls (.ofFeed source)).2
        ∃ k, Event.lexemes events = (Scanner.start source).calls k ∧
          Frugal source.characters (Event.lexemes events) (events.flatMap Event.pulled)) ∧
      ∀ (calls : List Call) (options : SessionOptions) (sink : Sink),
        let before := Call.readAll table calls (.ofFeed source)
        let events := before.2 ++ (Session.run table options before.1 sink).events
        ∃ k, Event.lexemes events = (Scanner.start source).calls k ∧
          Frugal source.characters (Event.lexemes events) (events.flatMap Event.pulled) := by
  obtain ⟨layout, proper, spelled⟩ := Layout.exists_proper source.characters
  refine ⟨layout, proper, spelled, ?_, ?_, ?_⟩
  · intro k lexemes pulled
    obtain ⟨front, through⟩ := Scanner.exists_through source k
    refine ⟨?_, Scanner.frugal_calls source k, through.feed⟩
    rw [← Layout.sightings_eq proper, spelled, ← Position.first_after]
    exact (Scanner.start source).sightings_calls k
  · intro calls events
    exact frugal_of_path (Call.path_readAll table calls _) rfl
  · intro calls options sink before events
    obtain ⟨last, reads⟩ := Session.exists_readsTo_run table options before.1
    obtain ⟨trail, reached, path, same, _⟩ := reads sink
    apply frugal_of_path ((Call.path_readAll table calls _).trans path)
    rw [Event.lexemes_append, Event.lexemes_append, same]

/-- Behind a connective no answer is pulled, behind a name one is. -/
example :
    let pulls := fun k => (((Scanner.start ("a/\\b ".toList.map some)).calls k).flatMap
      Lexeme.pulled).length
    pulls 1 = 2 ∧ pulls 2 = 3 ∧ pulls 3 = 5 := by
  decide +kernel

end FormulaReader
