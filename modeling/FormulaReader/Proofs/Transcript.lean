import FormulaReader.Proofs.Deeds
import FormulaReader.Proofs.Pulling
import FormulaReader.Proofs.Segments
import FormulaReader.Proofs.Wording

/-!
Transcripts: in which order a session reads, writes and flushes. Each turn is asked for first. What
was found is reported as soon as it is known, and only then is anything read over that is not to be
looked at again, so that an answer never waits for input behind the item it is about.
-/

namespace FormulaReader

/-! ## Doings -/

namespace Deed

/-- Pulling what it takes to read the lexemes. -/
def reading (lexemes : List Lexeme) : List Deed :=
  lexemes.flatMap fun lexeme => lexeme.pulled.map .pulled

def writing (text : String) : List Deed :=
  (Text.utf8 text).map .wrote

theorem count_flushed_reading (lexemes : List Lexeme) : (reading lexemes).count .flushed = 0 :=
  List.count_eq_zero.mpr (by simp [reading])

theorem count_flushed_writing (text : String) : (writing text).count .flushed = 0 :=
  List.count_eq_zero.mpr (by simp [writing])

end Deed

open Deed

theorem Event.deeds_read (lexeme : Lexeme) : (Event.read lexeme).deeds = reading [lexeme] :=
  (List.append_nil _).symm

theorem Event.flatMap_deeds_wrote (text : String) :
    ((Text.utf8 text).map Event.wrote).flatMap Event.deeds = writing text := by
  rw [List.flatMap_map, writing, List.map_eq_flatMap]
  rfl

/-- Writing the prompt and flushing, if there is a prompt. -/
def SessionOptions.prompting (options : SessionOptions) : List Deed :=
  match options.prompt with
  | none => []
  | some prompt => writing prompt ++ [.flushed]

theorem SessionOptions.flatMap_deeds_asking (options : SessionOptions) :
    options.asking.flatMap Event.deeds = options.prompting := by
  rw [asking, prompting]
  cases options.prompt with
  | none => rfl
  | some prompt =>
      rw [List.flatMap_append, Event.flatMap_deeds_wrote]
      rfl

theorem SessionOptions.count_flushed_prompting (options : SessionOptions) :
    options.prompting.count .flushed = if options.prompt = none then 0 else 1 := by
  rw [prompting]
  cases options.prompt with
  | none => rfl
  | some prompt => rw [List.count_append, count_flushed_writing, if_neg (by simp)]; rfl

/-! ## Turns -/

/-- What a turn does that finds `segment`, the first lexeme of which has been read before. The turn
ends when the first lexeme of `rest` has been read. Of an item there is a line that says what it is,
and its written form if `showTree`. -/
inductive Turn.Does (showTree : Bool) (finish : Lexeme) :
    Turn → (segment rest : List Lexeme) → List Deed → Prop
  | separator {lexeme : Lexeme} {rest : List Lexeme} :
      Does showTree finish .separator [lexeme] rest (reading [rest.headD finish])
  | definition {d : Definition} {first : Lexeme} {later rest : List Lexeme} :
      Does showTree finish (.item (.definition d)) (first :: later) rest
        (reading (later ++ [rest.headD finish]) ++
          writing ("Parsed a function definition.\n" ++ if showTree then d.text ++ "\n" else ""))
  | expression {e : Expression} {first : Lexeme} {later rest : List Lexeme} :
      Does showTree finish (.item (.expression e)) (first :: later) rest
        (reading (later ++ [rest.headD finish]) ++
          writing ("Parsed a top-level expression.\n" ++ if showTree then e.text ++ "\n" else ""))
  | rejected {e : ParseError} {message : String} {front : List Lexeme} {last : Lexeme}
      {rest : List Lexeme} :
      e.position = last.start →
      e.Told message →
      Does showTree finish (.rejected e) (front ++ [last]) rest
        (reading (front ++ [last]).tail ++
          (writing ("Error: " ++ message ++ "\n") ++ reading [rest.headD finish]))
  | rejectedAtEnd {e : ParseError} {message : String} {first : Lexeme} {later : List Lexeme} :
      e.position = finish.start →
      e.Told message →
      Does showTree finish (.rejected e) (first :: later) []
        (reading (later ++ [finish]) ++
          (writing ("Error: " ++ message ++ "\n") ++ reading [finish.endAfter]))
  | stray {lexeme : Lexeme} {shown : String} {rest : List Lexeme} :
      lexeme.token.Shown shown →
      Does showTree finish (.stray lexeme.token) [lexeme] rest
        (writing ("Warning: unexpected " ++ shown ++ " at top level\n") ++
          reading [rest.headD finish])

namespace Cursor

variable {c d : Cursor} {events : List Event}

/-- What is read along a path are the lexemes ahead. -/
theorem Path.deeds_eq (path : c.Path events d) (inside : Event.readCount events ≤ c.ahead.length) :
    events.flatMap Event.deeds = reading (c.ahead.take (Event.readCount events)) ∧
      d.ahead = c.ahead.drop (Event.readCount events) := by
  induction path with
  | stay => exact ⟨rfl, rfl⟩
  | @advance events d _ ih =>
      have one : Event.readCount (events ++ [.read d.advance.current]) =
          Event.readCount events + 1 := Event.readCount_append events _
      rw [one] at inside ⊢
      obtain ⟨before, left⟩ := ih (Nat.le_of_succ_le inside)
      have next := List.drop_eq_getElem_cons inside
      have moved : d.advance = ⟨c.ahead[Event.readCount events],
          c.ahead.drop (Event.readCount events + 1)⟩ := by
        rw [Cursor.advance, left, next]
      rw [moved, List.flatMap_append, before, List.take_succ_eq_append_getElem inside]
      constructor
      · rw [reading, reading, List.flatMap_append]
        rfl
      · rfl
  | @note events d n _ ih =>
      have same : Event.readCount (events ++ [.noted n]) = Event.readCount events :=
        Event.readCount_append events _
      rw [same] at inside ⊢
      rw [List.flatMap_append, (ih inside).1]
      exact ⟨List.append_nil _, (ih inside).2⟩

theorem Path.deeds_along {segment rest : List Lexeme} {finish : Lexeme}
    (path : (along (segment ++ rest) finish).Path events d)
    (length : Event.readCount events = segment.length) :
    events.flatMap Event.deeds = reading (segment ++ [rest.headD finish]).tail := by
  cases segment with
  | nil =>
      have nothing := path.deeds_eq (by rw [length]; exact Nat.zero_le _)
      rw [length] at nothing
      exact nothing.1
  | cons first later =>
      have ahead : (along (first :: later ++ rest) finish).ahead = later ++ (rest ++ [finish]) :=
        List.append_assoc later rest [finish]
      obtain ⟨behind, split⟩ : ∃ behind, rest ++ [finish] = rest.headD finish :: behind := by
        cases rest with
        | nil => exact ⟨[], rfl⟩
        | cons next more => exact ⟨more ++ [finish], rfl⟩
      have inside :
          Event.readCount events ≤ (along (first :: later ++ rest) finish).ahead.length := by
        rw [length, ahead, split]
        simp
      rw [(path.deeds_eq inside).1, length, ahead, split, List.length_cons,
        List.take_length_add_append]
      rfl

end Cursor

namespace Turn

theorem Does.count_flushed {showTree : Bool} {finish : Lexeme} {turn : Turn}
    {segment rest : List Lexeme} {deeds : List Deed}
    (does : Does showTree finish turn segment rest deeds) :
    deeds.count .flushed = 0 := by
  cases does <;> simp only [List.count_append, count_flushed_reading, count_flushed_writing]

theorem deeds_close {turn : Turn} (notItem : ∀ parsed, turn ≠ .item parsed) (c : Cursor) :
    (turn.close.run c).events.flatMap Event.deeds = reading [c.advance.current] := by
  cases turn with
  | item parsed => exact absurd rfl (notItem parsed)
  | _ => rfl

theorem Stops.does {finish : Lexeme} {found : TurnRead} {segment rest : List Lexeme}
    (stops : Stops finish found segment rest)
    (nonempty : segment ≠ [])
    (path : (Cursor.along (segment ++ rest) finish).Path found.events found.cursor)
    (showTree : Bool) :
    Does showTree finish found.turn segment rest
      ((found.script showTree).flatMap Event.deeds) := by
  have next : ∀ lexeme, (Cursor.along (lexeme :: rest) finish).advance.current =
      rest.headD finish := by
    intro lexeme
    rw [Cursor.advance_along_cons]
    cases rest <;> rfl
  rw [TurnRead.script, List.flatMap_append, List.flatMap_append, Event.flatMap_deeds_wrote]
  cases stops with
  | @item parsed _ _ _ length =>
      obtain ⟨first, later, rfl⟩ := List.exists_cons_of_ne_nil nonempty
      rw [path.deeds_along length]
      have closing : ∀ deeds : List Deed, deeds ++ [].flatMap Event.deeds = deeds :=
        List.append_nil
      cases parsed with
      | definition d => exact (closing _).symm ▸ .definition
      | expression e => exact (closing _).symm ▸ .expression
  | rejected place length =>
      rw [List.append_assoc] at path
      rw [path.deeds_along length, deeds_close (by simp), next]
      exact .rejected place (ParseError.told_iff.mpr rfl)
  | rejectedAtEnd place length =>
      obtain ⟨first, later, rfl⟩ := List.exists_cons_of_ne_nil nonempty
      rw [path.deeds_along length, deeds_close (by simp)]
      exact .rejectedAtEnd place (ParseError.told_iff.mpr rfl)
  | separator =>
      rw [deeds_close (by simp), next]
      exact .separator
  | stray =>
      rw [deeds_close (by simp), next]
      exact .stray (Token.shown_iff.mpr rfl)

end Turn

/-! ## Sessions -/

/-- What a session finds and does on `lexemes`, the first of which has been read. It asks before
every turn, and once more when it comes to the end of the input. -/
inductive Session.Transcribes (table : Precedence) (options : SessionOptions) (finish : Lexeme) :
    List Lexeme → List Turn → List Deed → Prop
  | atEnd : Transcribes table options finish [] [] options.prompting
  | turn {segment rest : List Lexeme} {turn : Turn} {turns : List Turn} {deeds later : List Deed} :
      segment ≠ [] →
      Turn.Covers table options.expressions finish turn segment rest →
      Turn.Does options.showTree finish turn segment rest deeds →
      Transcribes table options finish rest turns later →
      Transcribes table options finish (segment ++ rest) (turn :: turns)
        (options.prompting ++ (deeds ++ later))

namespace Session

variable {table : Precedence} {options : SessionOptions} {finish : Lexeme}

/-- What is found and done in the course of the turns. -/
theorem transcribes_course {lexemes : List Lexeme} {course : List TurnRead}
    (segmented : Turn.Segmented table options.expressions finish lexemes course) :
    Transcribes table options finish lexemes (course.map TurnRead.turn)
      ((course.flatMap (fun found => options.asking ++ found.script options.showTree) ++
        options.asking).flatMap Event.deeds) := by
  induction segmented with
  | atEnd =>
      rw [List.map_nil, List.flatMap_nil, List.nil_append, options.flatMap_deeds_asking]
      exact .atEnd
  | @turn segment rest found later nonempty place covers stops _ ih =>
      have path : (Cursor.along (segment ++ rest) finish).Path found.events found.cursor :=
        place ▸ Turn.path_read table options.expressions _
      have does := stops.does nonempty path options.showTree
      rw [List.map_cons, List.flatMap_cons, List.append_assoc, List.append_assoc,
        List.flatMap_append, List.flatMap_append, options.flatMap_deeds_asking]
      exact .turn nonempty covers does ih

/-- The turns from the first of the lexemes on are transcribed. -/
theorem transcribes_turns {lexemes : List Lexeme} (isInner : Lexeme.Inner lexemes)
    (atEnd : finish.token = .endOfInput) :
    Transcribes table options finish lexemes
      (Turn.all table options.expressions (Cursor.along lexemes finish))
      ((turnsScript table options (Cursor.along lexemes finish)).flatMap Event.deeds) := by
  rw [← Turn.map_turn_course]
  exact transcribes_course (Turn.segmented_course table options.expressions isInner atEnd)

theorem Transcribes.count_flushed {lexemes : List Lexeme} {turns : List Turn} {deeds : List Deed}
    (transcribes : Transcribes table options finish lexemes turns deeds) :
    deeds.count .flushed = (turns.length + 1) * options.prompting.count .flushed := by
  induction transcribes with
  | atEnd => rw [List.length_nil, Nat.zero_add, Nat.one_mul]
  | turn _ _ does _ ih =>
      rw [List.count_append, List.count_append, does.count_flushed, Nat.zero_add, ih,
        List.length_cons, Nat.succ_mul (_ + 1), Nat.add_comm]

/-- The order of all that a session does, from in front of a source of characters and on a sink that
never fails. To come through some lexemes, just what has to be known of them is pulled. -/
theorem exists_transcript (table : Precedence) (options : SessionOptions) (feed : Feed) :
    ∃ lexemes finish turns deeds,
      (Scanner.start feed).lexemes = lexemes ++ [finish] ∧
      Lexeme.Inner lexemes ∧ finish.token = .endOfInput ∧
      (∀ front, front <+: lexemes ++ [finish] →
        Frugal feed.characters front (front.flatMap Lexeme.pulled)) ∧
      Transcribes table options finish lexemes turns deeds ∧
      let outcome := run table options (Cursor.ofFeed feed) .unlimited
      outcome.result = .ok (SessionReport.ofTurns turns) ∧
      outcome.events.flatMap Event.deeds =
        options.prompting ++ (reading [lexemes.headD finish] ++ (deeds ++ [.flushed])) ∧
      (outcome.events.flatMap Event.deeds).count .flushed =
        if options.prompt = none then 1 else turns.length + 3 := by
  obtain ⟨lexemes, finish, shape, isInner, atEnd, start⟩ := Cursor.advance_ofFeed feed
  have transcribes : Transcribes table options finish lexemes _ _ :=
    transcribes_turns isInner atEnd
  have first : (Cursor.along lexemes finish).current = lexemes.headD finish := by
    cases lexemes <;> rfl
  have deeds : (script table options (Cursor.ofFeed feed)).flatMap Event.deeds =
      options.prompting ++ (reading [lexemes.headD finish] ++
        ((turnsScript table options (Cursor.along lexemes finish)).flatMap Event.deeds ++
          [.flushed])) := by
    rw [script, List.flatMap_append, options.flatMap_deeds_asking, List.flatMap_cons,
      List.flatMap_append, start, first, Event.deeds_read]
    rfl
  refine ⟨lexemes, finish, _, _, shape, isInner, atEnd, ?_, transcribes, ?_⟩
  · intro front isPrefix
    rw [← shape] at isPrefix
    rw [← (Scanner.start feed).calls_length_eq isPrefix]
    exact Scanner.frugal_calls feed _
  · rw [(performs_run table options (Cursor.ofFeed feed)).outcome, start]
    refine ⟨rfl, deeds, ?_⟩
    rw [deeds, List.count_append, List.count_append, List.count_append,
      transcribes.count_flushed, options.count_flushed_prompting, count_flushed_reading]
    by_cases silent : options.prompt = none
    · rw [if_pos silent, if_pos silent, Nat.mul_zero]
      rfl
    · rw [if_neg silent, if_neg silent, Nat.mul_one, List.count_singleton_self]
      omega

/-- That `a` is an item is known once the semicolon is read, which takes one answer behind it. The
report does not wait for the next token, for which nothing more is pulled. -/
example :
    (Session.run .standard ⟨none, false, true⟩ (Cursor.ofFeed ("a;".toList.map some))
      .unlimited).events.flatMap Event.deeds =
      [.pulled (some 'a'), .pulled (some ';'), .pulled none] ++
        (writing "Parsed a top-level expression.\n" ++ [.flushed]) := by
  decide +kernel

end Session

end FormulaReader
