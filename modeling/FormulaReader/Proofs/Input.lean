import FormulaReader.Proofs.Reading
import FormulaReader.Proofs.Sightings

/-!
Inputs: the lexemes of a source end with the end of the input, which occurs nowhere before, and a
cursor moves along them.
-/

namespace FormulaReader

/-! ## Cursors along lexemes -/

namespace Cursor

/-- The cursor at the first of `lexemes`, which `finish` follows. -/
def along : List Lexeme → Lexeme → Cursor
  | [], finish => ⟨finish, []⟩
  | first :: later, finish => ⟨first, later ++ [finish]⟩

@[simp] theorem token_along_nil (finish : Lexeme) : (along [] finish).token = finish.token := rfl

@[simp] theorem token_along_cons (first : Lexeme) (later : List Lexeme) (finish : Lexeme) :
    (along (first :: later) finish).token = first.token := rfl

@[simp] theorem advance_along_cons (first : Lexeme) (later : List Lexeme) (finish : Lexeme) :
    (along (first :: later) finish).advance = along later finish := by
  cases later <;> rfl

theorem advance_before (lexemes : List Lexeme) (finish : Lexeme) :
    (before (lexemes ++ [finish])).advance = along lexemes finish := by
  cases lexemes <;> rfl

end Cursor

/-- The sentence as a whole input. The positions of its lexemes do not matter. -/
def Parser.inputOf (sentence : List Token) : Cursor :=
  Cursor.along (sentence.map fun t => ⟨t, .first, []⟩) ⟨.endOfInput, .first, []⟩

/-! ## The lexemes of a source -/

/-- None of the lexemes is the end of the input. -/
def Lexeme.Inner (lexemes : List Lexeme) : Prop :=
  ∀ lexeme ∈ lexemes, lexeme.token ≠ .endOfInput

theorem Scanner.lexemes_eq_append (s : Scanner) :
    ∃ inner finish, s.lexemes = inner ++ [finish] ∧ Lexeme.Inner inner ∧
      finish.token = .endOfInput := by
  fun_induction Scanner.lexemes s with
  | case1 s step atEnd => exact ⟨[], step.1, rfl, by simp [Lexeme.Inner], atEnd⟩
  | case2 s step notEnd ih =>
      obtain ⟨inner, finish, shape, isInner, atEnd⟩ := ih
      refine ⟨step.1 :: inner, finish, by rw [shape, List.cons_append], ?_, atEnd⟩
      intro lexeme member
      rcases List.mem_cons.mp member with rfl | later
      · exact notEnd
      · exact isInner lexeme later

/-- The tokens of a text, without the end of the input. -/
def Text.tokens (text : String) : List Token :=
  ((Scanner.start (text.toList.map some)).lexemes.map Lexeme.token).dropLast

theorem Text.tokens_eq (text : String) : Text.tokens text = Text.tokensOf text.toList := by
  have law := congrArg (List.map Sighting.token) (Text.sightings_lexemes text)
  rw [List.map_map, List.map_append, Text.map_token_sightings, List.map_singleton] at law
  have all : (Scanner.start (text.toList.map some)).lexemes.map Lexeme.token =
      Text.tokensOf text.toList ++ [.endOfInput] := law
  rw [Text.tokens, all, List.dropLast_concat]

theorem Cursor.advance_ofFeed (feed : Feed) :
    ∃ lexemes finish, (Scanner.start feed).lexemes = lexemes ++ [finish] ∧
      Lexeme.Inner lexemes ∧ finish.token = .endOfInput ∧
      (Cursor.ofFeed feed).advance = Cursor.along lexemes finish := by
  obtain ⟨lexemes, finish, shape, isInner, atEnd⟩ := (Scanner.start feed).lexemes_eq_append
  refine ⟨lexemes, finish, shape, isInner, atEnd, ?_⟩
  rw [Cursor.ofFeed, shape, Cursor.advance_before]

/-- The lexemes of a text are the sightings of its characters. -/
theorem Text.exists_lexemes (text : String) :
    ∃ lexemes finish, lexemes.map Lexeme.sighting = sightings text.toList .first ∧
      finish.sighting = ⟨.endOfInput, Position.first.after text.toList⟩ ∧
      Lexeme.Inner lexemes ∧
      (Cursor.ofFeed (text.toList.map some)).advance = Cursor.along lexemes finish := by
  obtain ⟨lexemes, finish, shape, isInner, _, start⟩ :=
    Cursor.advance_ofFeed (text.toList.map some)
  have sighted := Text.sightings_lexemes text
  rw [shape, List.map_append, List.map_singleton] at sighted
  obtain ⟨inside, ended⟩ := List.append_inj' sighted rfl
  exact ⟨lexemes, finish, inside, (List.cons.inj ended).1, isInner, start⟩

theorem Text.advance_ofFeed (text : String) :
    ∃ lexemes finish, Text.tokens text = lexemes.map Lexeme.token ∧ Lexeme.Inner lexemes ∧
      finish.token = .endOfInput ∧
      (Cursor.ofFeed (text.toList.map some)).advance = Cursor.along lexemes finish := by
  obtain ⟨lexemes, finish, sighted, ended, isInner, start⟩ := Text.exists_lexemes text
  refine ⟨lexemes, finish, ?_, isInner, congrArg Sighting.token ended, start⟩
  rw [Text.tokens_eq, Text.tokensOf, ← sighted, List.map_map]
  rfl

namespace Cursor

variable {lexemes : List Lexeme} {finish : Lexeme} {tokens : List Token} {d : Cursor}

/-- What is read over, short of the end of the input, stands in front of the rest. -/
theorem over_along
    (atEnd : finish.token = .endOfInput)
    (inside : .endOfInput ∉ tokens)
    (across : (along lexemes finish).Over tokens d) :
    ∃ front rest, lexemes = front ++ rest ∧ tokens = front.map Lexeme.token ∧
      d = along rest finish := by
  induction tokens generalizing lexemes with
  | nil => exact ⟨[], lexemes, rfl, rfl, across.symm⟩
  | cons token tokens ih =>
      obtain ⟨found, further⟩ := across
      have notEnd : token ≠ .endOfInput := by
        rintro rfl
        exact inside List.mem_cons_self
      have laterInside : .endOfInput ∉ tokens := fun member =>
        inside (List.mem_cons_of_mem token member)
      cases lexemes with
      | nil => exact absurd (found.symm.trans atEnd) notEnd
      | cons first later =>
          rw [advance_along_cons] at further
          obtain ⟨front, rest, rfl, rfl, reached⟩ := ih laterInside further
          exact ⟨first :: front, rest, rfl, by rw [List.map_cons, ← found]; rfl, reached⟩

theorem over_along_all (lexemes : List Lexeme) (finish : Lexeme) :
    (along lexemes finish).Over (lexemes.map Lexeme.token) (along [] finish) := by
  induction lexemes with
  | nil => rfl
  | cons first later ih =>
      rw [List.map_cons, over_cons, advance_along_cons]
      exact ⟨rfl, ih⟩

/-- Reading over tokens up to the end of the input is reading over all of them. -/
theorem over_along_iff
    (isInner : Lexeme.Inner lexemes)
    (atEnd : finish.token = .endOfInput)
    (inside : .endOfInput ∉ tokens) :
    (along lexemes finish).Over tokens d ∧ d.token = .endOfInput ↔
      tokens = lexemes.map Lexeme.token ∧ d = along [] finish := by
  constructor
  · rintro ⟨across, ended⟩
    obtain ⟨front, rest, rfl, rfl, rfl⟩ := over_along atEnd inside across
    cases rest with
    | nil => exact ⟨by rw [List.append_nil], rfl⟩
    | cons next later =>
        have member : next ∈ front ++ next :: later :=
          List.mem_append_right front List.mem_cons_self
        exact absurd ended (isInner next member)
  · rintro ⟨rfl, rfl⟩
    exact ⟨over_along_all lexemes finish, atEnd⟩

end Cursor

end FormulaReader
