import FormulaReader.Log
import FormulaReader.ParseError

/-!
Wording: what is said about characters, positions, tokens, prototypes, errors and counts, kind by
kind. Each thing has one text by these rules, and it is the text that it has in messages, in
listings and in the log.
-/

namespace FormulaReader

/-! ## Characters -/

namespace Text

/-- The characters that have a short escape. -/
def escapes : List (Char × String) :=
  [('\x00', "\\0"), ('\t', "\\t"), ('\n', "\\n"), ('\r', "\\r"), ('\'', "\\'"), ('\\', "\\\\")]

/-- The characters that can be shown as they are: in ASCII those from the space to the tilde, and
beyond it those of the table. -/
def Plain (c : Char) : Prop :=
  if c.toNat < 128 then 0x20 ≤ c.toNat ∧ c.toNat ≤ 0x7e else visible c = true

theorem plain_iff {c : Char} : Plain c ↔ visible c = true := by
  by_cases ascii : c.toNat < 128
  · rw [Plain, if_pos ascii]
    exact (visible_iff_of_ascii ascii).symm
  · rw [Plain, if_neg ascii]

/-- How a character is shown between quotes: by its escape, as it is, or by its code point. -/
inductive Escaped : Char → String → Prop
  | short {c : Char} {body : String} :
      (c, body) ∈ escapes → Escaped c body
  | plain {c : Char} :
      Plain c → c ∉ escapes.map Prod.fst → Escaped c c.toString
  | codePoint {c : Char} :
      ¬ Plain c → c ∉ escapes.map Prod.fst →
      Escaped c ("\\u\x7b" ++ String.ofList (Nat.toDigits 16 c.toNat) ++ "\x7d")

theorem quotedBody_of_mem {c : Char} {body : String} (isShort : (c, body) ∈ escapes) :
    quotedBody c = body := by
  have each : ∀ pair ∈ escapes, quotedBody pair.1 = pair.2 := by decide +kernel
  exact each (c, body) isShort

theorem quotedBody_of_not_mem {c : Char} (notShort : c ∉ escapes.map Prod.fst) :
    quotedBody c =
      if visible c then c.toString
      else "\\u\x7b" ++ String.ofList (Nat.toDigits 16 c.toNat) ++ "\x7d" := by
  simp only [escapes, List.map_cons, List.map_nil, List.mem_cons, List.not_mem_nil, or_false,
    not_or] at notShort
  obtain ⟨notNull, notTab, notLine, notReturn, notQuote, notBackslash⟩ := notShort
  rw [quotedBody, if_neg notNull, if_neg notTab, if_neg notLine, if_neg notReturn, if_neg notQuote,
    if_neg notBackslash]
  rfl

theorem escaped_iff {c : Char} {body : String} : Escaped c body ↔ body = quotedBody c := by
  constructor
  · intro escaped
    cases escaped with
    | short isShort => exact (quotedBody_of_mem isShort).symm
    | plain isPlain notShort =>
        rw [quotedBody_of_not_mem notShort, if_pos (plain_iff.mp isPlain)]
    | codePoint hidden notShort =>
        rw [quotedBody_of_not_mem notShort, if_neg (mt plain_iff.mpr hidden)]
  · rintro rfl
    by_cases isShort : c ∈ escapes.map Prod.fst
    · obtain ⟨⟨_, body⟩, member, rfl⟩ := List.mem_map.mp isShort
      rw [quotedBody_of_mem member]
      exact .short member
    · rw [quotedBody_of_not_mem isShort]
      by_cases isVisible : visible c = true
      · rw [if_pos isVisible]
        exact .plain (plain_iff.mpr isVisible) isShort
      · rw [if_neg isVisible]
        exact .codePoint (mt plain_iff.mp isVisible) isShort

end Text

/-! ## Positions and tokens -/

/-- What is said about a position. -/
def Position.inWords (p : Position) : String :=
  "line " ++ toString p.line ++ ", column " ++ toString p.column

theorem Position.text_eq_inWords (p : Position) : p.text = p.inWords := rfl

namespace Token

/-- What is said about a token in messages. -/
inductive Shown : Token → String → Prop
  | endOfInput : Shown .endOfInput "end of input"
  | define : Shown .define "'def'"
  | universal : Shown (.quantifier .universal) "'forall'"
  | existential : Shown (.quantifier .existential) "'exists'"
  | conjunction : Shown (.connective .and) "'/\\'"
  | disjunction : Shown (.connective .or) "'\\/'"
  | identifier (name : String) : Shown (.identifier name) ("identifier '" ++ name ++ "'")
  | symbol {c : Char} {body : String} :
      Text.Escaped c body → Shown (.symbol c) ("'" ++ body ++ "'")

theorem shown_iff {t : Token} {shown : String} : t.Shown shown ↔ shown = t.text := by
  constructor
  · intro isShown
    cases isShown with
    | symbol escaped => rw [Text.escaped_iff.mp escaped]; rfl
    | _ => rfl
  · rintro rfl
    cases t with
    | endOfInput => exact .endOfInput
    | define => exact .define
    | quantifier kind =>
        cases kind with
        | universal => exact .universal
        | existential => exact .existential
    | connective kind =>
        cases kind with
        | and => exact .conjunction
        | or => exact .disjunction
    | identifier name => exact .identifier name
    | symbol c => exact .symbol (Text.escaped_iff.mpr rfl)

/-- The line of a token in a listing. -/
inductive Listed : Token → String → Prop
  | endOfInput : Listed .endOfInput "Eof"
  | define : Listed .define "Def"
  | universal : Listed (.quantifier .universal) "Quantifier(Universal)"
  | existential : Listed (.quantifier .existential) "Quantifier(Existential)"
  | conjunction : Listed (.connective .and) "Binop(And)"
  | disjunction : Listed (.connective .or) "Binop(Or)"
  | identifier (name : String) : Listed (.identifier name) ("Identifier(\"" ++ name ++ "\")")
  | symbol {c : Char} {body : String} :
      Text.Escaped c body → Listed (.symbol c) ("Char('" ++ body ++ "')")

theorem listing_symbol (c : Char) :
    (symbol c).listing = "Char('" ++ Text.quotedBody c ++ "')" := by
  apply String.toList_inj.mp
  simp [listing, Text.quoted]

theorem listed_iff {t : Token} {line : String} : t.Listed line ↔ line = t.listing := by
  constructor
  · intro listed
    cases listed with
    | symbol escaped => rw [listing_symbol, Text.escaped_iff.mp escaped]
    | _ => rfl
  · rintro rfl
    cases t with
    | endOfInput => exact .endOfInput
    | define => exact .define
    | quantifier kind =>
        cases kind with
        | universal => exact .universal
        | existential => exact .existential
    | connective kind =>
        cases kind with
        | and => exact .conjunction
        | or => exact .disjunction
    | identifier name => exact .identifier name
    | symbol c =>
        rw [listing_symbol]
        exact .symbol (Text.escaped_iff.mpr rfl)

end Token

/-! ## Prototypes and counts -/

theorem commaSeparated_eq_intercalate (texts : List String) :
    commaSeparated texts = ", ".intercalate texts := by
  cases texts with
  | nil => rfl
  | cons first later =>
      induction later generalizing first with
      | nil => simp [commaSeparated]
      | cons next later ih =>
          rw [String.intercalate_cons_cons, ← ih next]
          simp [commaSeparated, String.append_assoc]

theorem Prototype.text_eq (p : Prototype) :
    p.text = p.name ++ "(" ++ ", ".intercalate p.parameters ++ ")" := by
  rw [text, commaSeparated_eq_intercalate]

theorem summary_eq (items errors warnings : Nat) :
    summary items errors warnings =
      toString items ++ " item(s), " ++ toString errors ++ " error(s), " ++ toString warnings ++
        " warning(s)" := by
  apply String.toList_inj.mp
  simp [summary, counted, Text.decimal]

/-! ## Errors -/

/-- What is said about a fault, without its position. -/
inductive Fault.Told : Fault → String → Prop
  | expectedExpression {found : Token} {shown : String} :
      found.Shown shown →
      Told (.expectedExpression found)
        ("unknown token when expecting an expression, found " ++ shown)
  | unclosedGroup : Told .unclosedGroup "expected ')'"
  | unclosedArguments : Told .unclosedArguments "expected ')' or ',' in argument list"
  | expectedBoundVariable : Told .expectedBoundVariable "expected identifier after quantifier"
  | expectedBody : Told .expectedBody "expected ',' after quantified variable"
  | expectedFunctionName : Told .expectedFunctionName "expected function name in prototype"
  | expectedParameters : Told .expectedParameters "expected '(' in prototype"
  | unclosedParameters : Told .unclosedParameters "expected ')' in prototype"
  | expectedParameter : Told .expectedParameter "expected parameter name after ','"
  | tooDeep (limit : Nat) :
      Told (.tooDeep limit) ("expressions nested deeper than " ++ toString limit ++ " levels")
  | unexpectedRest {found : Token} {shown : String} :
      found.Shown shown →
      Told (.unexpectedRest found) ("unexpected trailing input, found " ++ shown)

theorem Fault.told_iff {fault : Fault} {told : String} : fault.Told told ↔ told = fault.text := by
  constructor
  · intro tells
    cases tells with
    | expectedExpression shown => rw [Token.shown_iff.mp shown]; rfl
    | unexpectedRest shown => rw [Token.shown_iff.mp shown]; rfl
    | _ => rfl
  · rintro rfl
    cases fault with
    | expectedExpression found => exact .expectedExpression (Token.shown_iff.mpr rfl)
    | unclosedGroup => exact .unclosedGroup
    | unclosedArguments => exact .unclosedArguments
    | expectedBoundVariable => exact .expectedBoundVariable
    | expectedBody => exact .expectedBody
    | expectedFunctionName => exact .expectedFunctionName
    | expectedParameters => exact .expectedParameters
    | unclosedParameters => exact .unclosedParameters
    | expectedParameter => exact .expectedParameter
    | tooDeep limit => exact .tooDeep limit
    | unexpectedRest found => exact .unexpectedRest (Token.shown_iff.mpr rfl)

/-- What is said about an error: where it is, and what is wrong there. -/
inductive ParseError.Told (e : ParseError) : String → Prop
  | placed {told : String} : e.fault.Told told → Told e (e.position.inWords ++ ": " ++ told)

theorem ParseError.told_iff {e : ParseError} {message : String} :
    e.Told message ↔ message = e.message := by
  rw [ParseError.message, Position.text_eq_inWords]
  constructor
  · rintro ⟨told⟩
    rw [Fault.told_iff.mp told]
  · rintro rfl
    exact .placed (Fault.told_iff.mpr rfl)

end FormulaReader
