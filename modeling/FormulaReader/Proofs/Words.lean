import FormulaReader.Proofs.Sightings

/-!
Words and punctuation: the tokens of a text that begins with a word, a space or a parenthesis. A
word has to stand apart from the letters and digits after it.
-/

namespace FormulaReader.Text

/-- Words begin with a letter and go on with letters and digits. -/
def isWord (word : String) : Bool :=
  match word.toList with
  | [] => false
  | first :: later => first.isAlpha && later.all Char.isAlphanum

/-- Names are the words that are no keywords. -/
def isName (word : String) : Bool :=
  isWord word && !(["def", "forall", "exists"].contains word)

theorem ne_of_isName {word : String} (named : isName word = true) : word ≠ "" := by
  rintro rfl
  cases named

/-- No letter and no digit is at the front. -/
def Apart (cs : List Char) : Prop :=
  ∀ c ∈ cs.head?, c.isAlphanum = false

theorem apart_nil : Apart [] := by
  simp [Apart]

theorem apart_cons {c : Char} {cs : List Char} (outside : c.isAlphanum = false) :
    Apart (c :: cs) := by
  simpa [Apart] using outside

theorem sightings_isWord {word : String} {rest : List Char} (p : Position)
    (shaped : isWord word = true)
    (apart : Apart rest) :
    sightings (word.toList ++ rest) p =
      ⟨.ofWord word, p⟩ :: sightings rest (p.after word.toList) := by
  rw [isWord] at shaped
  split at shaped
  · cases shaped
  · next first later letters =>
      obtain ⟨letter, inWord⟩ := Bool.and_eq_true_iff.mp shaped
      have whole : String.ofList (first :: later) = word := by
        rw [← letters, String.ofList_toList]
      rw [letters, sightings_word p letter (List.all_eq_true.mp inWord) apart, whole]

theorem tokensOf_word {word : String} {rest : List Char}
    (shaped : isWord word = true)
    (apart : Apart rest) :
    tokensOf (word.toList ++ rest) = .ofWord word :: tokensOf rest := by
  rw [tokensOf, sightings_isWord _ shaped apart, List.map_cons, map_token_sightings]

theorem tokensOf_name {word : String} {rest : List Char}
    (named : isName word = true)
    (apart : Apart rest) :
    tokensOf (word.toList ++ rest) = .identifier word :: tokensOf rest := by
  obtain ⟨shaped, unreserved⟩ := Bool.and_eq_true_iff.mp named
  have noKeyword : word ≠ "def" ∧ word ≠ "forall" ∧ word ≠ "exists" := by
    simpa using unreserved
  rw [tokensOf_word shaped apart]
  simp [Token.ofWord, noKeyword]

theorem tokensOf_keyword (quantifier : Quantifier) {rest : List Char} (apart : Apart rest) :
    tokensOf (quantifier.keyword.toList ++ rest) = .quantifier quantifier :: tokensOf rest := by
  cases quantifier with
  | universal => exact tokensOf_word (by decide) apart
  | existential => exact tokensOf_word (by decide) apart

theorem tokensOf_space (cs : List Char) : tokensOf (' ' :: cs) = tokensOf cs :=
  tokensOf_blank cs (by decide)

/-- Parentheses and commas are read one by one. -/
theorem tokensOf_punctuation {c : Char} (cs : List Char) (plain : c ∈ ['(', ')', ',']) :
    tokensOf (c :: cs) = .symbol c :: tokensOf cs := by
  simp only [List.mem_cons, List.not_mem_nil, or_false] at plain
  rcases plain with rfl | rfl | rfl
  · exact tokensOf_symbol (by decide) (by decide) (by simp [Connective.ofGlyph?])
  · exact tokensOf_symbol (by decide) (by decide) (by simp [Connective.ofGlyph?])
  · exact tokensOf_symbol (by decide) (by decide) (by simp [Connective.ofGlyph?])

end FormulaReader.Text
