import FormulaReader.Proofs.Resynchronisation

/-!
Bytes: in the UTF-8 bytes of a text, each taken for a character, a session finds the same items as
in the text itself. Only characters beyond ASCII are written with other bytes, and neither these
characters nor those bytes belong to any item: each of them parts the text like a semicolon, so it
makes no difference how many of them stand in a row.
-/

namespace FormulaReader

/-! ## Characters as bytes -/

namespace Text

/-- The characters that the UTF-8 bytes of `cs` are if each byte is taken for one. -/
def bytewise (cs : List Char) : List Char :=
  (cs.flatMap String.utf8EncodeChar).map latin1

theorem bytewise_cons (c : Char) (cs : List Char) :
    bytewise (c :: cs) = (String.utf8EncodeChar c).map latin1 ++ bytewise cs := by
  rw [bytewise, List.flatMap_cons, List.map_append, bytewise]

theorem toNat_latin1 (byte : UInt8) : (latin1 byte).toNat = byte.toNat := by
  have small : byte.toNat < 256 := byte.toNat_lt
  have valid : byte.toNat.isValidChar := .inl (Nat.lt_trans small (by decide))
  rw [latin1, Char.ofNat, dif_pos valid]
  rfl

theorem map_latin1_of_ascii {c : Char} (ascii : c.toNat < 128) :
    (String.utf8EncodeChar c).map latin1 = [c] := by
  have small : c.val.toNat ≤ 127 := Nat.le_of_lt_succ ascii
  have byte : c.val.toNat % 256 = c.toNat :=
    Nat.mod_eq_of_lt (Nat.lt_of_le_of_lt small (by decide))
  simp only [String.utf8EncodeChar, small, if_true, List.map_singleton, latin1,
    UInt8.toNat_ofNat', byte, Char.ofNat_toNat]

/-- Beyond ASCII every byte of a character is too. -/
theorem le_of_mem_utf8EncodeChar {c : Char} (beyond : 128 ≤ c.toNat) :
    ∀ byte ∈ String.utf8EncodeChar c, 128 ≤ byte.toNat := by
  have large : ¬ c.val.toNat ≤ 127 := Nat.not_le_of_lt beyond
  simp only [String.utf8EncodeChar, large, if_false]
  split
  · simp
    omega
  · split
    · simp
      omega
    · simp
      omega

theorem exists_map_latin1_of_beyond {c : Char} (beyond : 128 ≤ c.toNat) :
    ∃ first others, (String.utf8EncodeChar c).map latin1 = first :: others ∧
      ∀ d ∈ first :: others, 128 ≤ d.toNat := by
  have nonempty : (String.utf8EncodeChar c).map latin1 ≠ [] := by
    simp [String.utf8EncodeChar_ne_nil]
  obtain ⟨first, others, shape⟩ := List.exists_cons_of_ne_nil nonempty
  refine ⟨first, others, shape, ?_⟩
  rw [← shape]
  intro d member
  obtain ⟨byte, inBytes, rfl⟩ := List.mem_map.mp member
  rw [toNat_latin1]
  exact le_of_mem_utf8EncodeChar beyond byte inBytes

theorem ne_of_beyond {c d : Char} (beyond : 128 ≤ c.toNat) (ascii : d.toNat < 128) : c ≠ d := by
  rintro rfl
  exact absurd ascii (Nat.not_lt.mpr beyond)

theorem lone_of_beyond {c : Char} (beyond : 128 ≤ c.toNat) : Lone c := by
  have notBlank : isBlank c = false := by
    simp only [isBlank, Bool.or_eq_false_iff, decide_eq_false_iff_not]
    refine ⟨⟨⟨⟨⟨?_, ?_⟩, ?_⟩, ?_⟩, ?_⟩, ?_⟩ <;> exact ne_of_beyond beyond (by decide)
  have notInWord : c.isAlphanum = false := by
    have large : 128 ≤ c.val.toNat := beyond
    delta Char.isAlphanum Char.isAlpha Char.isUpper Char.isLower Char.isDigit
    simp [UInt32.le_iff_toNat_le]
    omega
  exact ⟨notBlank, notInWord, ne_of_beyond beyond (by decide), ne_of_beyond beyond (by decide)⟩

theorem foreign_of_beyond {c : Char} (beyond : 128 ≤ c.toNat) :
    (Token.symbol c).foreign = true := by
  have notOpening : c ≠ '(' := ne_of_beyond beyond (by decide)
  have notClosing : c ≠ ')' := ne_of_beyond beyond (by decide)
  have notComma : c ≠ ',' := ne_of_beyond beyond (by decide)
  simp [Token.foreign, notOpening, notClosing, notComma]

theorem endOfInput_not_mem_tokensOf (cs : List Char) : .endOfInput ∉ tokensOf cs := by
  obtain ⟨lexemes, finish, sighted, _, isInner, _⟩ := exists_lexemes (String.ofList cs)
  rw [String.toList_ofList] at sighted
  rw [tokensOf, ← sighted, List.map_map]
  intro member
  obtain ⟨lexeme, inside, atEnd⟩ := List.mem_map.mp member
  exact isInner lexeme inside atEnd

end Text

/-! ## Items of tokens -/

namespace Item

variable {table : Precedence} {expressions : Bool}

/-- The items that a session finds in the tokens, wherever these stand. -/
def found (table : Precedence) (expressions : Bool) (tokens : List Token) : List Item :=
  (SessionReport.ofTurns (Turn.all table expressions (Parser.inputOf tokens))).items

theorem found_nil : found table expressions [] = [] := by
  have atEnd : (Parser.inputOf []).token = .endOfInput := rfl
  rw [found, Turn.all_of_atEnd atEnd]
  rfl

theorem items_along {lexemes : List Lexeme} {finish : Lexeme}
    (isInner : Lexeme.Inner lexemes)
    (atEnd : finish.token = .endOfInput) :
    (SessionReport.ofTurns (Turn.all table expressions (Cursor.along lexemes finish))).items =
      found table expressions (lexemes.map Lexeme.token) := by
  rw [found, Turn.all_inputOf table expressions isInner atEnd, SessionReport.ofTurns_carried]

theorem items_singleton {turn : Turn} (notItem : ∀ parsed, turn ≠ .item parsed) :
    (SessionReport.ofTurns [turn]).items = [] := by
  cases turn with
  | item parsed => exact absurd rfl (notItem parsed)
  | _ => rfl

/-- A symbol that no expression holds parts the tokens. -/
theorem found_append_symbol {x : Char} {front : List Token} (rest : List Token)
    (foreign : (Token.symbol x).foreign = true)
    (inside : .endOfInput ∉ front) :
    found table expressions (front ++ .symbol x :: rest) =
      found table expressions front ++ found table expressions rest := by
  let finish : Lexeme := ⟨.endOfInput, .first, []⟩
  let parting : Lexeme := ⟨.symbol x, .first, []⟩
  let later : List Lexeme := rest.map fun t => ⟨t, .first, []⟩
  have isInner : Lexeme.Inner (front.map fun t => ⟨t, .first, []⟩) := by
    intro lexeme member
    obtain ⟨t, inFront, rfl⟩ := List.mem_map.mp member
    rintro rfl
    exact inside inFront
  have atEnd : finish.token = .endOfInput := rfl
  have symbol : parting.token = .symbol x := rfl
  have position : parting.start = finish.start := rfl
  obtain ⟨between, shape, turns⟩ := Turn.all_before_symbol table expressions later finish isInner
    atEnd rfl symbol foreign position
  have noItems : (SessionReport.ofTurns between).items = [] := by
    have atSymbol : (Cursor.along (parting :: later) finish).token = .symbol x := rfl
    rcases shape with rfl | rfl
    · rfl
    · exact items_singleton (Turn.read_symbol table expressions atSymbol foreign).1
  rw [found, Parser.inputOf, List.map_append, List.map_cons, turns,
    SessionReport.ofTurns_append, SessionReport.ofTurns_append, SessionReport.ofTurns_carried]
  simp only [noItems, List.nil_append]
  rfl

theorem found_tokensOf_append {c : Char} (cs ds : List Char) (beyond : 128 ≤ c.toNat) :
    found table expressions (Text.tokensOf (cs ++ c :: ds)) =
      found table expressions (Text.tokensOf cs) ++ found table expressions (Text.tokensOf ds) := by
  rw [Text.tokensOf_append_lone (Text.lone_of_beyond beyond)]
  exact found_append_symbol _ (Text.foreign_of_beyond beyond) (Text.endOfInput_not_mem_tokensOf cs)

theorem found_tokensOf_beyond {cs : List Char} (ds : List Char)
    (beyond : ∀ c ∈ cs, 128 ≤ c.toNat) :
    found table expressions (Text.tokensOf (cs ++ ds)) =
      found table expressions (Text.tokensOf ds) := by
  induction cs with
  | nil => rfl
  | cons c cs ih =>
      have laterBeyond : ∀ d ∈ cs, 128 ≤ d.toNat := fun d member =>
        beyond d (List.mem_cons_of_mem c member)
      have parted : found table expressions (Text.tokensOf ([] ++ c :: (cs ++ ds))) = _ :=
        found_tokensOf_append [] (cs ++ ds) (beyond c List.mem_cons_self)
      rw [Text.tokensOf_nil, found_nil, List.nil_append, List.nil_append] at parted
      rw [List.cons_append, parted, ih laterBeyond]

/-- Behind the same text, the bytes of `cs` hold the items of `cs`. -/
theorem found_bytewise (before cs : List Char) :
    found table expressions (Text.tokensOf (before ++ Text.bytewise cs)) =
      found table expressions (Text.tokensOf (before ++ cs)) := by
  induction cs generalizing before with
  | nil => rfl
  | cons c cs ih =>
      rw [Text.bytewise_cons]
      -- A character of ASCII joins what stands before. Any other one parts the text, and so does
      -- each of its bytes, so behind it the text begins anew.
      by_cases ascii : c.toNat < 128
      · have again := ih (before ++ [c])
        rw [List.append_assoc, List.append_assoc] at again
        rw [Text.map_latin1_of_ascii ascii]
        exact again
      · have beyond : 128 ≤ c.toNat := Nat.not_lt.mp ascii
        obtain ⟨first, others, shape, high⟩ := Text.exists_map_latin1_of_beyond beyond
        have othersHigh : ∀ d ∈ others, 128 ≤ d.toNat := fun d member =>
          high d (List.mem_cons_of_mem first member)
        rw [shape, List.cons_append, found_tokensOf_append _ _ (high first List.mem_cons_self),
          found_tokensOf_append _ _ beyond, found_tokensOf_beyond _ othersHigh]
        exact congrArg (_ ++ ·) (ih [])

end Item

/-- A session over a text finds the items that tokens of its characters hold. -/
theorem Session.exists_report_found (table : Precedence) (options : SessionOptions)
    (cs : List Char) :
    ∃ report : SessionReport,
      (run table options (Cursor.ofFeed (cs.map some)) .unlimited).result = .ok report ∧
      report.items = Item.found table options.expressions (Text.tokensOf cs) := by
  obtain ⟨lexemes, finish, sighted, ended, isInner, start⟩ :=
    Text.exists_lexemes (String.ofList cs)
  rw [String.toList_ofList] at sighted start
  have spelled : lexemes.map Lexeme.token = Text.tokensOf cs := by
    rw [Text.tokensOf, ← sighted, List.map_map]
    rfl
  refine ⟨_, (Session.yields_run table options _).1, ?_⟩
  rw [start, Item.items_along isInner (congrArg Sighting.token ended), spelled]

/-- A session over the UTF-8 bytes of a text, each taken for a character, finds the same items as a
session over the text. -/
theorem Session.items_bytewise (table : Precedence) (options : SessionOptions)
    (source : String) :
    ∃ report bytewise : SessionReport,
      (run table options (Cursor.ofFeed (source.toList.map some)) .unlimited).result =
        .ok report ∧
      (run table options (Cursor.ofFeed ((Text.utf8 source).map fun byte =>
          some (Text.latin1 byte))) .unlimited).result = .ok bytewise ∧
      bytewise.items = report.items := by
  have characters : ((Text.utf8 source).map fun byte => some (Text.latin1 byte)) =
      (Text.bytewise source.toList).map some := by
    rw [Text.bytewise, List.map_map]
    rfl
  obtain ⟨report, ran, items⟩ := exists_report_found table options source.toList
  obtain ⟨bytewise, ranBytewise, itemsBytewise⟩ :=
    exists_report_found table options (Text.bytewise source.toList)
  refine ⟨report, bytewise, ran, ?_, ?_⟩
  · rw [characters]
    exact ranBytewise
  · rw [itemsBytewise, items]
    exact Item.found_bytewise [] source.toList

/-- The rest of the two reports may differ: one character can be two stray tokens. -/
example :
    let options : SessionOptions := ⟨none, false, false⟩
    let warnings := fun feed : Feed =>
      ((Session.run .standard options (Cursor.ofFeed feed) .unlimited).result.map
        SessionReport.warnings).toOption
    warnings ("é".toList.map some) = some 1 ∧
      warnings ((Text.utf8 "é").map fun byte => some (Text.latin1 byte)) = some 2 := by
  decide +kernel

end FormulaReader
