import FormulaReader.Proofs.Printing
import FormulaReader.Proofs.Turns

/-!
Programs: the written forms of many items in one text. Each item ends where the next one, or what
stands between the two, begins, so a session gets all of them back.
-/

namespace FormulaReader

/-! ## Items and their tokens -/

namespace Item

def text : Item → String
  | .definition d => d.text
  | .expression e => e.text

def wellFormed : Item → Bool
  | .definition d => d.wellFormed
  | .expression e => e.wellFormed

/-- How deep the formula nests that the item consists of or defines. -/
def depth : Item → Nat
  | .definition d => d.body.depth
  | .expression e => e.depth

/-- The tokens of the written form. -/
def tokens : Item → List Token
  | .definition d => .define :: (d.prototype.tokens ++ d.body.written.tokens)
  | .expression e => e.written.tokens

theorem tokensOf_text {item : Item} {rest : List Char}
    (formed : item.wellFormed = true)
    (apart : Text.Apart rest) :
    Text.tokensOf (item.text.toList ++ rest) = item.tokens ++ Text.tokensOf rest := by
  cases item with
  | definition d =>
      rw [tokens, List.cons_append, List.append_assoc]
      exact Definition.tokensOf_text formed apart
  | expression e => exact Expression.tokensOf_text formed apart

end Item

/-! ## Reading an item -/

/-- The token ends every expression, but a semicolon or a further definition may follow an item. -/
def Token.endsItem (t : Token) : Prop :=
  t = .endOfInput ∨ t = .define ∨ t = .symbol ';'

namespace Parser

variable {table : Precedence} {c d : Cursor}

theorem reads_written {e : Expression} (positive : ∀ kind, 0 ≤ table.of kind)
    (shallow : e.depth ≤ 256)
    (across : c.Over e.written.tokens d)
    (ends : d.token.endsItem) :
    (expression table).Reads c e d := by
  have phraseTokens := Phrase.tokens_single e.written
  have phraseEnds : (Phrase.chain e.written []).EndsAt table d.token := by
    rcases ends with same | same | same
    · rw [same]
      exact Phrase.endsAt_endOfInput
    · rw [same]
      constructor
      · intro opening
        cases opening
      · intro kind connects
        cases connects
    · rw [same]
      exact Phrase.endsAt_of_symbol (by decide)
  refine (recognisesPhrases_chainWithin table nestingLimit _ _ _).mpr
    ⟨.chain e.written [], ⟨?_, ?_, ?_, fun kind _ => positive kind⟩, phraseEnds, ?_⟩
  · rw [phraseTokens]
    exact across
  · exact Phrase.maximal_single (Expression.maximal_written e)
  · rw [Phrase.nesting_single, Expression.nesting_written]
    exact shallow
  · rw [Phrase.tree_single, Expression.tree_written]

end Parser

namespace Turn

variable {table : Precedence} {expressions : Bool} {c d : Cursor}

theorem attempt_of_reads {α : Type} {p : Parser α} {a : α} (kind : α → Item)
    (reads : p.Reads c a d) :
    (attempt p kind c).turn = .item (kind a) ∧ (attempt p kind c).cursor = d := by
  obtain ⟨result, rfl⟩ := reads
  simp only [attempt, result, and_self]

/-- A turn at the tokens of an item reads it. -/
theorem read_of_over {item : Item} (positive : ∀ kind, 0 ≤ table.of kind)
    (wanted : ∀ e, item = .expression e → expressions = true)
    (shallow : item.depth ≤ 256)
    (across : c.Over item.tokens d)
    (ends : d.token.endsItem) :
    c.token ≠ .endOfInput ∧
      (read table expressions c).turn = .item item ∧ (read table expressions c).cursor = d := by
  cases item with
  | definition f =>
      obtain ⟨keyword, rest⟩ := across
      obtain ⟨m, head, body⟩ := Cursor.over_append.mp rest
      have taken : (Parser.definition table).Reads c f d :=
        Parser.reads_definitionWithin_iff.mpr
          ⟨m, head, Parser.reads_written positive shallow body ends⟩
      rw [read, keyword]
      exact ⟨by simp, attempt_of_reads .definition taken⟩
  | expression e =>
      have taken := Parser.reads_written positive shallow across ends
      obtain ⟨first, rest, shape, opens⟩ := e.written.tokens_eq_cons
      rw [Item.tokens, shape] at across
      obtain ⟨begins, _⟩ := across
      rw [read, begins]
      split
      · cases opens
      · cases opens
      · next notSeparator notDefine =>
          have notEnd : first ≠ .endOfInput := by
            rintro rfl
            cases opens
          rw [if_pos (wanted e rfl)]
          exact ⟨notEnd, attempt_of_reads .expression taken⟩

end Turn

/-! ## Items one after another -/

/-- The tokens are those of the items, with semicolons between them and wherever else an item may
begin. Between an item and an expression there has to be one. -/
inductive Item.Spelled (expressions : Bool) : List Item → List Token → Prop
  | none : Spelled expressions [] []
  | separator {items : List Item} {tokens : List Token} :
      Spelled expressions items tokens →
      Spelled expressions items (.symbol ';' :: tokens)
  | item {item : Item} {items : List Item} {tokens : List Token} :
      (∀ e, item = .expression e → expressions = true) →
      item.depth ≤ 256 →
      (∀ next ∈ tokens.head?, next = .define ∨ next = .symbol ';') →
      Spelled expressions items tokens →
      Spelled expressions (item :: items) (item.tokens ++ tokens)

theorem SessionReport.ofTurns_item (item : Item) (turns : List Turn) :
    ofTurns (.item item :: turns) =
      { ofTurns turns with items := item :: (ofTurns turns).items } := by
  simp [ofTurns]

/-- The turns on such tokens find the items and nothing else. -/
theorem Item.Spelled.ofTurns_all {table : Precedence} {expressions : Bool} {items : List Item}
    {tokens : List Token} {c d : Cursor}
    (spelled : Spelled expressions items tokens)
    (positive : ∀ kind, 0 ≤ table.of kind)
    (across : c.Over tokens d)
    (atEnd : d.token = .endOfInput) :
    SessionReport.ofTurns (Turn.all table expressions c) = ⟨items, [], 0⟩ := by
  induction spelled generalizing c with
  | none =>
      cases across
      rw [Turn.all_of_atEnd atEnd]
      rfl
  | separator _ ih =>
      obtain ⟨separates, rest⟩ := across
      have notEnd : c.token ≠ .endOfInput := by simp [separates]
      have found : Turn.read table expressions c = ⟨.separator, c, []⟩ := by
        rw [Turn.read, separates]
        rfl
      rw [Turn.all_of_notEnd notEnd, found]
      exact ih rest
  | @item item items tokens wanted shallow next _ ih =>
      obtain ⟨m, inItem, rest⟩ := Cursor.over_append.mp across
      have ends : m.token.endsItem := by
        cases tokens with
        | nil =>
            cases rest
            exact .inl atEnd
        | cons first later =>
            obtain ⟨begins, _⟩ := rest
            rw [begins]
            exact .inr (next first rfl)
      obtain ⟨notEnd, turn, reached⟩ := Turn.read_of_over positive wanted shallow inItem ends
      have found : SessionReport.ofTurns
          (Turn.all table expressions ((Turn.item item).closed m)) = ⟨items, [], 0⟩ := ih rest
      rw [Turn.all_of_notEnd notEnd, turn, reached, SessionReport.ofTurns_item, found]

/-- What follows a definition, or leads to one, is a semicolon or a keyword. -/
theorem Item.Spelled.head {expressions : Bool} {d : Definition} {items : List Item}
    {tokens : List Token}
    (spelled : Spelled expressions (.definition d :: items) tokens) :
    ∀ next ∈ tokens.head?, next = .define ∨ next = .symbol ';' := by
  intro next first
  cases spelled with
  | separator _ =>
      cases first
      exact .inr rfl
  | item _ _ _ _ =>
      cases first
      exact .inl rfl

/-! ## Texts with something between them -/

namespace Text

/-- Blanks and semicolons, at least one of them. -/
def isParting (between : String) : Bool :=
  between.toList ≠ [] && between.toList.all fun c => isBlank c || c = ';'

/-- The text consists of `texts`, with a `parting` text between any two of them. -/
inductive Joined (parting : String → Prop) : (texts : List String) → String → Prop
  | none : Joined parting [] ""
  | one (text : String) : Joined parting [text] text
  | more {text between next rest : String} {texts : List String} :
      parting between →
      Joined parting (next :: texts) rest →
      Joined parting (text :: next :: texts) (text ++ between ++ rest)

theorem joined_intercalate (between : String) (texts : List String) :
    Joined (· = between) texts (between.intercalate texts) := by
  induction texts with
  | nil =>
      rw [String.intercalate_nil]
      exact .none
  | cons text later ih =>
      cases later with
      | nil =>
          rw [String.intercalate_singleton]
          exact .one text
      | cons next texts =>
          rw [String.intercalate_cons_cons]
          exact .more rfl ih

theorem not_isAlphanum_of_isBlank {c : Char} (blank : isBlank c = true) :
    c.isAlphanum = false := by
  simp only [isBlank, Bool.or_eq_true, decide_eq_true_eq] at blank
  rcases blank with ((((rfl | rfl) | rfl) | rfl) | rfl) | rfl <;> rfl

variable {cs rest : List Char}

theorem apart_append (nonempty : cs ≠ [])
    (parts : ∀ c ∈ cs, isBlank c = true ∨ c = ';') :
    Apart (cs ++ rest) := by
  obtain ⟨c, later, rfl⟩ := List.exists_cons_of_ne_nil nonempty
  apply apart_cons
  rcases parts c List.mem_cons_self with blank | rfl
  · exact not_isAlphanum_of_isBlank blank
  · rfl

/-- Of what stands between two texts, the semicolons are left. -/
theorem tokensOf_append_of_parts (parts : ∀ c ∈ cs, isBlank c = true ∨ c = ';') :
    tokensOf (cs ++ rest) = List.replicate (cs.count ';') (.symbol ';') ++ tokensOf rest := by
  induction cs with
  | nil => rfl
  | cons c later ih =>
      have further := ih fun d member => parts d (List.mem_cons_of_mem c member)
      rcases parts c List.mem_cons_self with blank | rfl
      · have other : c ≠ ';' := by
          rintro rfl
          cases blank
        rw [List.cons_append, tokensOf_blank _ blank, further, List.count_cons_of_ne other]
      · have alone : Connective.ofGlyph? ';' (later ++ rest).head? = none := by
          simp [Connective.ofGlyph?]
        rw [List.cons_append, tokensOf_symbol rfl rfl alone, further, List.count_cons_self,
          List.replicate_succ, List.cons_append]

end Text

namespace Item

theorem Spelled.replicate_append {expressions : Bool} {items : List Item} {tokens : List Token}
    (spelled : Spelled expressions items tokens) (n : Nat) :
    Spelled expressions items (List.replicate n (.symbol ';') ++ tokens) := by
  induction n with
  | zero => exact spelled
  | succ n ih => exact ih.separator

theorem Spelled.cons_text {expressions : Bool} {item : Item} {items : List Item}
    {rest : List Char}
    (spelled : Spelled expressions items (Text.tokensOf rest))
    (wanted : ∀ e, item = .expression e → expressions = true)
    (formed : item.wellFormed = true)
    (shallow : item.depth ≤ 256)
    (apart : Text.Apart rest)
    (next : ∀ t ∈ (Text.tokensOf rest).head?, t = .define ∨ t = .symbol ';') :
    Spelled expressions (item :: items) (Text.tokensOf (item.text.toList ++ rest)) := by
  rw [tokensOf_text formed apart]
  exact spelled.item wanted shallow next

/-- Written items are spelled by their text if a semicolon stands between any two of them, or if
they are all definitions. -/
theorem spelled_of_joined {expressions : Bool} {parting : String → Prop} {items : List Item}
    {text : String}
    (partings : ∀ between, parting between → Text.isParting between = true)
    (parted : (∀ between, parting between → ';' ∈ between.toList) ∨
      ∀ item ∈ items, ∃ d, item = .definition d)
    (wanted : ∀ item ∈ items, ∀ e, item = .expression e → expressions = true)
    (formed : ∀ item ∈ items, item.wellFormed = true ∧ item.depth ≤ 256)
    (joined : Text.Joined parting (items.map Item.text) text) :
    Spelled expressions items (Text.tokensOf text.toList) := by
  induction items generalizing text with
  | nil =>
      cases joined
      exact Text.tokensOf_nil ▸ .none
  | cons item later ih =>
      obtain ⟨itemFormed, shallow⟩ := formed item List.mem_cons_self
      have itemWanted := wanted item List.mem_cons_self
      cases later with
      | nil =>
          cases joined
          have nothing : Spelled expressions [] (Text.tokensOf []) := Text.tokensOf_nil ▸ .none
          have single := nothing.cons_text itemWanted itemFormed shallow Text.apart_nil
            (by simp [Text.tokensOf_nil])
          rw [List.append_nil] at single
          exact single
      | cons next items =>
          rw [List.map_cons, List.map_cons] at joined
          cases joined with
          | @more _ between _ rest _ parts further =>
              have spelled := ih
                (parted.imp_right fun all item member => all item (List.mem_cons_of_mem _ member))
                (fun item member => wanted item (List.mem_cons_of_mem _ member))
                (fun item member => formed item (List.mem_cons_of_mem _ member)) further
              obtain ⟨nonempty, inside⟩ := Bool.and_eq_true_iff.mp (partings between parts)
              have each : ∀ c ∈ between.toList, isBlank c = true ∨ c = ';' := by
                simpa using inside
              have tokens : Text.tokensOf (between.toList ++ rest.toList) = _ :=
                Text.tokensOf_append_of_parts each
              have follows : ∀ t ∈ (Text.tokensOf (between.toList ++ rest.toList)).head?,
                  t = .define ∨ t = .symbol ';' := by
                rw [tokens]
                -- Blanks alone leave no token, and then only a definition may come next.
                cases count : between.toList.count ';' with
                | zero =>
                    rcases parted with semicolons | definitions
                    · exact absurd (semicolons between parts) (List.count_eq_zero.mp count)
                    · obtain ⟨d, rfl⟩ := definitions next (by simp)
                      exact spelled.head
                | succ n =>
                    intro t first
                    cases first
                    exact .inr rfl
              have shape : (item.text ++ between ++ rest).toList =
                  item.text.toList ++ (between.toList ++ rest.toList) := by
                simp
              rw [shape]
              refine Spelled.cons_text ?_ itemWanted itemFormed shallow
                (Text.apart_append (by simpa using nonempty) each) follows
              rw [tokens]
              exact spelled.replicate_append _

end Item

/-! ## Sessions on programs -/

theorem Session.run_of_spelled {table : Precedence} {options : SessionOptions}
    {items : List Item} {text : String}
    (positive : ∀ kind, 0 ≤ table.of kind)
    (spelled : Item.Spelled options.expressions items (Text.tokensOf text.toList)) :
    (run table options (Cursor.ofFeed (text.toList.map some)) .unlimited).result =
      .ok ⟨items, [], 0⟩ := by
  obtain ⟨lexemes, finish, same, isInner, atEnd, start⟩ := Text.advance_ofFeed text
  rw [Text.tokens_eq] at same
  rw [(yields_run table options _).1, start]
  rw [same] at spelled
  have across := Cursor.over_along_all lexemes finish
  exact congrArg Except.ok (spelled.ofTurns_all positive across atEnd)

/-- A session finds the items again that a text was written from, all of them and nothing else.
Definitions may have any blanks and semicolons between them; where expressions are items too, a
semicolon parts each from the next. -/
theorem Session.items_reread (table : Precedence) (options : SessionOptions)
    (andPositive : 0 ≤ table.and)
    (orPositive : 0 ≤ table.or) :
    (∀ (definitions : List Definition) (text : String),
      (∀ d ∈ definitions, d.wellFormed = true ∧ d.body.depth ≤ 256) →
      Text.Joined (fun between => Text.isParting between = true)
        (definitions.map Definition.text) text →
      (run table options (Cursor.ofFeed (text.toList.map some)) .unlimited).result =
        .ok ⟨definitions.map .definition, [], 0⟩) ∧
    (∀ items : List Item, options.expressions = true →
      (∀ item ∈ items, item.wellFormed = true ∧ item.depth ≤ 256) →
      (run table options
        (Cursor.ofFeed ((";".intercalate (items.map Item.text)).toList.map some))
          .unlimited).result = .ok ⟨items, [], 0⟩) := by
  have positive := Precedence.of_nonneg andPositive orPositive
  constructor
  · intro definitions text formed joined
    have definition : ∀ item ∈ definitions.map Item.definition, ∃ d ∈ definitions,
        item = .definition d := by
      intro item member
      obtain ⟨d, inside, rfl⟩ := List.mem_map.mp member
      exact ⟨d, inside, rfl⟩
    have texts : (definitions.map Item.definition).map Item.text =
        definitions.map Definition.text := by
      rw [List.map_map]
      rfl
    rw [← texts] at joined
    apply run_of_spelled positive
    refine Item.spelled_of_joined (fun _ parts => parts) (.inr ?_) ?_ ?_ joined
    · intro item member
      obtain ⟨d, _, rfl⟩ := definition item member
      exact ⟨d, rfl⟩
    · intro item member e same
      obtain ⟨d, _, rfl⟩ := definition item member
      cases same
    · intro item member
      obtain ⟨d, inside, rfl⟩ := definition item member
      exact formed d inside
  · intro items wanted formed
    apply run_of_spelled positive
    refine Item.spelled_of_joined ?_ (.inl ?_) (fun _ _ _ _ => wanted) formed
      (Text.joined_intercalate ";" _)
    · rintro between rfl
      decide
    · rintro between rfl
      decide

theorem Session.rereads_definitions_and_call :
    let f : Definition := ⟨⟨"f", ["x"]⟩, .var "x"⟩
    let g : Definition := ⟨⟨"g", []⟩, .binary .or (.call "f" [.var "y"]) (.var "y")⟩
    let items : List Item := [.expression (.call "g" []), .definition f, .expression (.var "y")]
    let options : SessionOptions := ⟨none, false, true⟩
    0 ≤ Precedence.standard.and ∧ 0 ≤ Precedence.standard.or ∧
      (∀ d ∈ [f, g], d.wellFormed = true ∧ d.body.depth ≤ 256) ∧
      (run .standard options
        (Cursor.ofFeed ("def f(x) x\n def g() (f(y) \\/ y)".toList.map some)) .unlimited).result =
          .ok ⟨[.definition f, .definition g], [], 0⟩ ∧
      (∀ item ∈ items, item.wellFormed = true ∧ item.depth ≤ 256) ∧
      (run .standard options
        (Cursor.ofFeed ((";".intercalate (items.map Item.text)).toList.map some))
          .unlimited).result = .ok ⟨items, [], 0⟩ := by
  intro f g items options
  have andPositive : 0 ≤ Precedence.standard.and := by decide
  have orPositive : 0 ≤ Precedence.standard.or := by decide
  have definitionsFormed : ∀ d ∈ [f, g], d.wellFormed = true ∧ d.body.depth ≤ 256 := by decide
  have itemsFormed : ∀ item ∈ items, item.wellFormed = true ∧ item.depth ≤ 256 := by decide
  have whole : "def f(x) x\n def g() (f(y) \\/ y)" = f.text ++ "\n " ++ g.text := by decide
  have parting : Text.isParting "\n " = true := by decide
  have joined : Text.Joined (fun between => Text.isParting between = true)
      ([f, g].map Definition.text) (f.text ++ "\n " ++ g.text) := .more parting (.one g.text)
  obtain ⟨definitions, mixed⟩ := items_reread .standard options andPositive orPositive
  rw [whole]
  exact ⟨andPositive, orPositive, definitionsFormed, definitions [f, g] _ definitionsFormed joined,
    itemsFormed, mixed items rfl itemsFormed⟩

end FormulaReader
