import FormulaReader.Proofs.Books
import FormulaReader.Proofs.Climbing
import FormulaReader.Proofs.Names
import FormulaReader.Proofs.Succession

/-!
Vocabulary: whatever a parser is asked for, its answer keeps the words and connectives that were read
over, in the same order, and nothing else. So there is no name in an answer that was not scanned, and
none is lost or repeated.
-/

namespace FormulaReader

/-! ## Names and connectives -/

namespace Token

def name? : Token → Option String
  | .identifier name => some name
  | _ => none

def connective? : Token → Option Connective
  | .connective kind => some kind
  | _ => none

/-- The names among the tokens. -/
def names (tokens : List Token) : List String :=
  tokens.filterMap name?

/-- The connectives among the tokens. -/
def connectives (tokens : List Token) : List Connective :=
  tokens.filterMap connective?

variable {tokens : List Token} {x : String}

theorem mem_names_iff : x ∈ names tokens ↔ .identifier x ∈ tokens := by
  rw [names, List.mem_filterMap]
  constructor
  · rintro ⟨t, member, named⟩
    cases t with
    | identifier y =>
        cases named
        exact member
    | _ => cases named
  · intro member
    exact ⟨.identifier x, member, rfl⟩

theorem filterMap_filter_kept {α : Type} {view : Token → Option α}
    (unseen : ∀ character, view (.symbol character) = none) (tokens : List Token) :
    (tokens.filter kept).filterMap view = tokens.filterMap view := by
  rw [List.filterMap_filter]
  congr 1
  funext t
  cases t with
  | symbol character => exact (unseen character).symm
  | _ => rfl

theorem names_filter_kept (tokens : List Token) : names (tokens.filter kept) = names tokens :=
  filterMap_filter_kept (fun _ => rfl) tokens

theorem connectives_filter_kept (tokens : List Token) :
    connectives (tokens.filter kept) = connectives tokens :=
  filterMap_filter_kept (fun _ => rfl) tokens

end Token

/-! ## What is kept of what is read over -/

namespace Cursor

variable {c m d : Cursor} {content later : List Token}

/-- From `c` to `d` the input is `content`, with single characters anywhere between. -/
def Holds (c : Cursor) (content : List Token) (d : Cursor) : Prop :=
  ∃ tokens, c.Over tokens d ∧ tokens.filter Token.kept = content

theorem Over.holds {tokens : List Token} (across : c.Over tokens d) :
    c.Holds (tokens.filter Token.kept) d :=
  ⟨tokens, across, rfl⟩

theorem Holds.trans (front : c.Holds content m) (back : m.Holds later d) :
    c.Holds (content ++ later) d := by
  obtain ⟨tokens, across, rfl⟩ := front
  obtain ⟨further, acrossFurther, rfl⟩ := back
  exact ⟨tokens ++ further, over_append.mpr ⟨m, across, acrossFurther⟩, List.filter_append ..⟩

/-- What is read over from names on are names. -/
theorem Named.of_over {tokens : List Token} (named : c.Named) (across : c.Over tokens d) :
    ∀ x, .identifier x ∈ tokens → Text.isName x = true := by
  induction tokens generalizing c with
  | nil => simp
  | cons first later ih =>
      obtain ⟨found, further⟩ := across
      intro x member
      rcases List.mem_cons.mp member with rfl | inLater
      · exact named 0 x found
      · exact ih (named.skip 1) further x inLater

theorem Named.of_holds (named : c.Named) (holds : c.Holds content d) :
    ∀ x, .identifier x ∈ content → Text.isName x = true := by
  obtain ⟨tokens, across, rfl⟩ := holds
  intro x member
  exact named.of_over across x (List.mem_filter.mp member).1

end Cursor

section

variable {table : Precedence} {room : Nat} {p : Parser Expression} {c d : Cursor} {e : Expression}

theorem RecognisesPrimaries.holds (recognises : RecognisesPrimaries table room p)
    (read : p.Reads c e d) :
    c.Holds e.content d := by
  obtain ⟨operand, spans, _, rfl⟩ := (recognises c e d).mp read
  rw [operand.content_tree]
  exact spans.across.holds

theorem RecognisesPhrases.holds (recognises : RecognisesPhrases table room p)
    (read : p.Reads c e d) :
    c.Holds e.content d := by
  obtain ⟨phrase, spans, _, rfl⟩ := (recognises c e d).mp read
  rw [phrase.content_tree]
  exact spans.across.holds

theorem Parser.Linked.holds {least : Int32} {links : List Link}
    (recognises : RecognisesPrimaries table room p)
    (linked : Parser.Linked table least p c links d) :
    c.Holds (Link.contentOfAll links) d := by
  induction linked with
  | stop _ => exact ⟨[], rfl, rfl⟩
  | @step c m d kind right later found _ read _ ih =>
      have connective : c.Over [.connective kind] c.advance := ⟨found, rfl⟩
      exact connective.holds.trans ((recognises.holds read).trans ih)

theorem Parser.holds_definition {f : Definition} (read : (Parser.definition table).Reads c f d) :
    c.advance.Holds f.content d := by
  rw [Parser.definition_eq, Parser.reads_definitionWithin_iff] at read
  obtain ⟨m, head, body⟩ := read
  rw [Definition.content, Prototype.content_eq_filter]
  exact head.holds.trans ((Parser.recognisesPhrases_chainWithin table _).holds body)

end

/-! ## Calls -/

def Answer.content : Answer → List Token
  | .moved => []
  | .expression e => e.content
  | .prototype p => p.content
  | .definition d => d.content

namespace Call

/-- What a call brings along. -/
def content : Call → List Token
  | .continuation _ left => left.content
  | _ => []

/-- Where the tokens begin that the call looks at. The first one is read over unseen by some. -/
def start (call : Call) (c : Cursor) : Cursor :=
  match call with
  | .next | .group | .definition => c.advance
  | _ => c

variable {call : Call} {table : Precedence} {answer : Answer} {c d : Cursor}

/-- An answer holds what the call brought along and then what was read over. -/
theorem holds (read : (call.parser table).Reads c answer d) :
    ∃ rest, (call.start c).Holds rest d ∧ answer.content = call.content ++ rest := by
  have primaries := Parser.recognisesPrimaries_primaryWithin table Parser.nestingLimit
  have phrases := Parser.recognisesPhrases_chainWithin table Parser.nestingLimit
  have operands := Parser.recognisesPrimaries_operand phrases
  cases call with
  | next =>
      obtain ⟨_, moved, rfl⟩ := Parser.reads_bind_pure.mp read
      rw [Parser.reads_advance.mp moved]
      exact ⟨[], ⟨[], rfl, rfl⟩, rfl⟩
  | primary =>
      obtain ⟨e, inside, rfl⟩ := Parser.reads_bind_pure.mp read
      exact ⟨e.content, primaries.holds inside, rfl⟩
  | group =>
      obtain ⟨e, inside, rfl⟩ := Parser.reads_bind_pure.mp read
      obtain ⟨n, inner, closes, rfl⟩ := Parser.reads_group.mp inside
      have closing : n.Over [.symbol ')'] n.advance := ⟨closes, rfl⟩
      refine ⟨_, (phrases.holds inner).trans closing.holds, ?_⟩
      exact (List.append_nil e.content).symm
  | application =>
      obtain ⟨e, inside, rfl⟩ := Parser.reads_bind_pure.mp read
      exact ⟨e.content, operands.holds (Parser.reads_operand.mpr (.inr (.inl inside))), rfl⟩
  | quantification =>
      obtain ⟨e, inside, rfl⟩ := Parser.reads_bind_pure.mp read
      exact ⟨e.content, operands.holds (Parser.reads_operand.mpr (.inl inside)), rfl⟩
  | expression =>
      obtain ⟨e, inside, rfl⟩ := Parser.reads_bind_pure.mp read
      exact ⟨e.content, phrases.holds inside, rfl⟩
  | continuation least left =>
      obtain ⟨e, inside, rfl⟩ := Parser.reads_bind_pure.mp read
      obtain ⟨links, linked, rfl⟩ := Parser.reads_continuation_iff.mp inside
      exact ⟨_, linked.holds primaries, Chain.content_grouped table left links⟩
  | prototype =>
      obtain ⟨p, inside, rfl⟩ := Parser.reads_bind_pure.mp read
      have across := Parser.reads_prototype_iff.mp inside
      exact ⟨_, across.holds, p.content_eq_filter⟩
  | definition =>
      obtain ⟨f, inside, rfl⟩ := Parser.reads_bind_pure.mp read
      exact ⟨f.content, Parser.holds_definition inside, rfl⟩

/-- From names on, a call answers with names, besides those that it brought along. -/
theorem named (named : c.Named)
    (given : ∀ x, .identifier x ∈ call.content → Text.isName x = true)
    (read : (call.parser table).Reads c answer d) :
    ∀ x, .identifier x ∈ answer.content → Text.isName x = true := by
  obtain ⟨rest, holds, shape⟩ := holds read
  have startNamed : (call.start c).Named := by
    cases call <;> first | exact named | exact named.skip 1
  intro x member
  rw [shape] at member
  rcases List.mem_append.mp member with inGiven | inRest
  · exact given x inGiven
  · exact startNamed.of_holds holds x inRest

end Call

/-! ## Sessions -/

def Item.content : Item → List Token
  | .definition d => d.content
  | .expression e => e.content

namespace Turn

variable {table : Precedence} {expressions : Bool} {c : Cursor} {item : Item}

theorem exists_reads_of_attempt {α : Type} {p : Parser α} {kind : α → Item}
    (found : (attempt p kind c).turn = .item item) :
    ∃ a d, p.Reads c a d ∧ kind a = item := by
  rw [attempt] at found
  cases result : (p.run c).result with
  | error e =>
      rw [result] at found
      cases found
  | ok a =>
      rw [result] at found
      exact ⟨a, _, ⟨result, rfl⟩, Turn.item.inj found⟩

theorem named_of_read (named : c.Named) (found : (read table expressions c).turn = .item item) :
    ∀ x, .identifier x ∈ item.content → Text.isName x = true := by
  rw [read] at found
  split at found
  · cases found
  · obtain ⟨f, d, taken, rfl⟩ := exists_reads_of_attempt found
    exact (named.skip 1).of_holds (Parser.holds_definition taken)
  · split at found
    · obtain ⟨e, d, taken, rfl⟩ := exists_reads_of_attempt found
      exact named.of_holds ((Parser.recognisesPhrases_chainWithin table _).holds taken)
    · cases found

theorem named_of_mem_all (named : c.Named) (member : .item item ∈ all table expressions c) :
    ∀ x, .identifier x ∈ item.content → Text.isName x = true := by
  fun_induction all table expressions c with
  | case1 c atEnd => cases member
  | case2 c notEnd found ih =>
      rcases List.mem_cons.mp member with first | later
      · exact named_of_read named first.symm
      · have path := (path_read table expressions c).trans (found.turn.close.path found.cursor)
        exact ih (named.of_path path) later

end Turn

theorem SessionReport.mem_items_ofTurns_iff {turns : List Turn} {item : Item} :
    item ∈ (ofTurns turns).items ↔ .item item ∈ turns := by
  rw [ofTurns, List.mem_filterMap]
  constructor
  · rintro ⟨turn, member, found⟩
    cases turn with
    | item parsed =>
        cases found
        exact member
    | _ => cases found
  · intro member
    exact ⟨.item item, member, rfl⟩

/-! ## Answers and sessions -/

/-- Nothing but what was scanned gets into a tree. Whatever a parser has been asked for before, all
names in its next answer are words that are no keywords, provided that the names are which the call
brought along. So are all names in the items of a session that goes on from there. What is parsed of
a whole text holds the names and the connectives of the text, all of them and in the same order, if it
is an expression, or a definition that begins with the keyword. -/
theorem answers_keep_vocabulary (table : Precedence) :
    (∀ (feed : Feed) (calls : List Call),
      let t := (Call.runAll calls (.start feed table)).1
      (∀ call : Call, (∀ x ∈ Token.names call.content, Text.isName x = true) →
        ∀ answer, (call.counter.run t).result = .ok answer →
          ∀ x ∈ Token.names answer.content, Text.isName x = true ∧ x ≠ "") ∧
        ∀ options sink report, (Session.run table options t.cursor sink).result = .ok report →
          ∀ item ∈ report.items, ∀ x ∈ Token.names item.content, Text.isName x = true ∧ x ≠ "") ∧
      (∀ source e, (parseExpression source table).result = .ok e →
        Token.names e.content = Token.names (Text.tokens source) ∧
          Token.connectives e.content = Token.connectives (Text.tokens source)) ∧
      ∀ source f, (parseDefinition source table).result = .ok f →
        (Text.tokens source).head? = some .define →
          Token.names f.content = Token.names (Text.tokens source) ∧
            Token.connectives f.content = Token.connectives (Text.tokens source) := by
  refine ⟨?_, ?_, ?_⟩
  · intro feed calls t
    have settled : t.Settled feed table _ := (Tally.settled_start feed table).runAll calls
    refine ⟨?_, ?_⟩
    · intro call given answer answered x member
      rw [(settled.alike call).1] at answered
      have isName := Call.named settled.named (fun y inside => given y (Token.mem_names_iff.mpr inside))
        ⟨answered, rfl⟩ x (Token.mem_names_iff.mp member)
      exact ⟨isName, Text.ne_of_isName isName⟩
    · intro options sink report reported item inReport x member
      rw [Session.eq_of_run_eq_ok reported, SessionReport.mem_items_ofTurns_iff] at inReport
      have isName := Turn.named_of_mem_all (settled.named.skip 1) inReport x
        (Token.mem_names_iff.mp member)
      exact ⟨isName, Text.ne_of_isName isName⟩
  · intro source e parsed
    rw [Expression.content_of_parsed parsed]
    exact ⟨Token.names_filter_kept _, Token.connectives_filter_kept _⟩
  · intro source f parsed keyword
    obtain ⟨first, rest, shape, same⟩ := Definition.content_of_parsed parsed
    rw [shape, List.head?_cons, Option.some.injEq] at keyword
    rw [shape, keyword, same, Token.names_filter_kept, Token.connectives_filter_kept]
    exact ⟨rfl, rfl⟩

theorem keeps_vocabulary_of_definition :
    let quantified := "forall z, g(x, z) /\\ y"
    let source := "def f(x, y) " ++ quantified
    let body : Expression :=
      .quantified .universal "z" (.binary .and (.call "g" [.var "x", .var "z"]) (.var "y"))
    let f : Definition := ⟨⟨"f", ["x", "y"]⟩, body⟩
    let calls : List Call := [.next, .next, .prototype]
    let t := (Call.runAll calls (.start (source.toList.map some) .standard)).1
    let report : SessionReport := ⟨[.expression body], [], 0⟩
    (Call.expression.counter.run t).result = .ok (.expression body) ∧
      (∀ x ∈ ["z", "g", "x", "z", "y"], Text.isName x = true ∧ x ≠ "") ∧
      (Session.run .standard ⟨none, false, true⟩ (.ofFeed (quantified.toList.map some))
        .unlimited).result = .ok report ∧
      (∀ item ∈ report.items, ∀ x ∈ Token.names item.content, Text.isName x = true ∧ x ≠ "") ∧
      (parseExpression quantified .standard).result = .ok body ∧
      Token.names (Text.tokens quantified) = ["z", "g", "x", "z", "y"] ∧
      (parseDefinition source .standard).result = .ok f ∧
      Token.names (Text.tokens source) = ["f", "x", "y", "z", "g", "x", "z", "y"] := by
  intro quantified source body f calls t report
  have answered : (Call.expression.counter.run t).result = .ok (.expression body) := by
    decide +kernel
  have reported : (Session.run .standard ⟨none, false, true⟩
      (.ofFeed (quantified.toList.map some)) .unlimited).result = .ok report := by
    decide +kernel
  have parsed : (parseExpression quantified .standard).result = .ok body := by decide +kernel
  have defined : (parseDefinition source .standard).result = .ok f := by decide +kernel
  have keyword : (Text.tokens source).head? = some .define := by decide +kernel
  have bringsNothing : ∀ x ∈ Token.names Call.expression.content, Text.isName x = true := by
    simp [Call.content, Token.names]
  obtain ⟨handedOut, expressions, definitions⟩ := answers_keep_vocabulary .standard
  have named := (handedOut (source.toList.map some) calls).1 .expression bringsNothing _ answered
  have items := (handedOut (quantified.toList.map some) []).2 _ _ report reported
  exact ⟨answered, named, reported, items, parsed, (expressions quantified body parsed).1.symm,
    defined, (definitions source f defined keyword).1.symm⟩

/-- Behind another first token a definition is parsed too, but the name that this token may be is
lost. -/
example :
    ((parseDefinition "x f(y) y" .standard).result.toOption.map fun f =>
      (Token.names f.content, Token.names (Text.tokens "x f(y) y"))) =
        some (["f", "y", "y"], ["x", "f", "y", "y"]) := by
  decide +kernel

end FormulaReader
