import FormulaReader.Lexeme
import FormulaReader.Scanner.Feed

/-!
Scanning: characters are grouped into lexemes, one at a time. A scanner pulls from its source only
what the next lexeme needs, which is at most one character beyond it, and nothing once the source
has answered that the input is over.
-/

namespace FormulaReader

/-- The blanks that separate tokens: space, tabulators, line breaks and form feed. -/
def isBlank (c : Char) : Bool :=
  c = ' ' || c = '\t' || c = '\n' || c = '\x0b' || c = '\x0c' || c = '\r'

/-- The connective that two characters in a row stand for. -/
def Connective.ofGlyph? : Char → Option Char → Option Connective
  | '/', some '\\' => some .and
  | '\\', some '/' => some .or
  | _, _ => none

/-- The one answer that a scanner may hold beyond the last lexeme. -/
inductive Lookahead where
  | unread
  | read (answer : Option Char)

namespace Lookahead

/-- The stretch of characters in `inClass` that begins with the lookahead. -/
def stretch (inClass : Char → Bool) (feed : Feed) : Lookahead → Stretch
  | .unread => Feed.stretch inClass feed
  | .read none => ⟨[], none, [], feed⟩
  | .read (some c) =>
      if inClass c then (Feed.stretch inClass feed).push c
      else ⟨[], some c, [], feed⟩

/-- How many characters the lookahead holds. -/
def size : Lookahead → Nat
  | .unread => 0
  | .read answer => answer.toList.length

theorem stretch_length_le
    (lookahead : Lookahead)
    (inClass : Char → Bool)
    (feed : Feed) :
    (lookahead.stretch inClass feed).stop.toList.length +
        (lookahead.stretch inClass feed).rest.length ≤
      lookahead.size + feed.length := by
  have further := Feed.stretch_length_le inClass feed
  cases lookahead with
  | unread => simpa [stretch, size] using further
  | read answer =>
      cases answer with
      | none => simp [stretch, size]
      | some c =>
          by_cases inside : inClass c = true
          · simp only [stretch, inside, if_true, Stretch.push, size]
            omega
          · simp [stretch, inside, size]

end Lookahead

structure Scanner where
  lookahead : Lookahead
  /-- The position of the next character, which is the lookahead if there is one. -/
  position : Position
  feed : Feed

namespace Scanner

/-- A scanner at the start of its source, from which nothing has been pulled. -/
def start (feed : Feed) : Scanner :=
  ⟨.unread, .first, feed⟩

/-- How many answers may still make up tokens. -/
def size (s : Scanner) : Nat :=
  s.lookahead.size + s.feed.length

/-- The word that begins with the letter `first` at `position`. -/
def word (first : Char) (position : Position) (feed : Feed) : Lexeme × Scanner :=
  let further := Feed.stretch Char.isAlphanum feed
  let letters := first :: further.taken
  (⟨.ofWord (String.ofList letters), position, further.pulled⟩,
    ⟨.read further.stop, position.after letters, further.rest⟩)

/-- The connective or the single character that begins with `first` at `position`. -/
def sign (first : Char) (position : Position) (feed : Feed) : Lexeme × Scanner :=
  let (second, rest) := feed.pull
  match Connective.ofGlyph? first second with
  | some connective =>
      (⟨.connective connective, position, [second]⟩,
        ⟨.unread, position.after connective.glyph.toList, rest⟩)
  | none =>
      (⟨.symbol first, position, [second]⟩, ⟨.read second, position.next first, rest⟩)

/-- The next lexeme, and the scanner after it. At the end of the input the scanner stays where
it is. -/
def next (s : Scanner) : Lexeme × Scanner :=
  let blanks := s.lookahead.stretch isBlank s.feed
  let position := s.position.after blanks.taken
  match blanks.stop with
  | none => (⟨.endOfInput, position, blanks.pulled⟩, ⟨.read none, position, blanks.rest⟩)
  | some first =>
      let (lexeme, later) :=
        if first.isAlpha then word first position blanks.rest
        else sign first position blanks.rest
      ({ lexeme with pulled := blanks.pulled ++ lexeme.pulled }, later)

theorem word_size_le (first : Char) (position : Position) (feed : Feed) :
    (word first position feed).2.size ≤ feed.length := by
  simpa [word, size, Lookahead.size] using Feed.stretch_length_le Char.isAlphanum feed

theorem sign_size_le (first : Char) (position : Position) (feed : Feed) :
    (sign first position feed).2.size ≤ feed.length := by
  have pulled := Feed.pull_length_le feed
  simp only [sign]
  split
  · simp only [size, Lookahead.size]
    omega
  · simpa [size, Lookahead.size] using pulled

/-- Every token but the end of the input uses up a character. -/
theorem next_size_lt {s : Scanner}
    (notEnd : s.next.1.token ≠ .endOfInput) :
    s.next.2.size < s.size := by
  have blanks := s.lookahead.stretch_length_le isBlank s.feed
  cases stops : (s.lookahead.stretch isBlank s.feed).stop with
  | none => simp [next, stops] at notEnd
  | some first =>
      rw [stops] at blanks
      simp only [Option.toList_some, List.length_singleton] at blanks
      simp only [next, stops]
      split
      · have := word_size_le first
          (s.position.after (s.lookahead.stretch isBlank s.feed).taken)
          (s.lookahead.stretch isBlank s.feed).rest
        simp only [size] at this ⊢
        omega
      · have := sign_size_le first
          (s.position.after (s.lookahead.stretch isBlank s.feed).taken)
          (s.lookahead.stretch isBlank s.feed).rest
        simp only [size] at this ⊢
        omega

/-- The lexemes still to come, the first end of the input included. -/
def lexemes (s : Scanner) : List Lexeme :=
  let step := s.next
  if step.1.token = .endOfInput then [step.1] else step.1 :: step.2.lexemes
termination_by s.size
decreasing_by exact next_size_lt ‹_›

end Scanner

end FormulaReader
