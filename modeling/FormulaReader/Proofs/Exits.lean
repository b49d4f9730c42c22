import FormulaReader.CommandLine.Run
import FormulaReader.Proofs.Records
import FormulaReader.Proofs.Wording

/-!
Exits: what comes of parsing a file. A file that is not a text leaves no output. Otherwise the
output is that of a session on the text, with a summary behind it, and before it the tokens if they
are wanted; the program fails just if the session has errors.
-/

namespace FormulaReader

/-! ## Files that are texts -/

theorem Text.toByteArray_utf8 (text : String) : (utf8 text).toByteArray = text.toByteArray :=
  String.utf8Encode_toList

/-- Bytes are read as a text just if they are that text in UTF-8. -/
theorem Text.ofUtf8?_eq_some_iff {bytes : List UInt8} {text : String} :
    ofUtf8? bytes = some text ↔ bytes = utf8 text := by
  rw [ofUtf8?, String.fromUTF8?]
  constructor
  · intro read
    split at read
    · cases read
      apply List.toByteArray_inj.mp
      rw [toByteArray_utf8]
      rfl
    · cases read
  · rintro rfl
    rw [toByteArray_utf8, dif_pos text.isValidUTF8]
    rfl

section Files

variable {file : Except ReadFault (List UInt8)} {text : String}

theorem textOfFile_ok (bytes : List UInt8) :
    textOfFile (.ok bytes) =
      match Text.ofUtf8? bytes with
      | some text => .ok text
      | none => .error .notText := rfl

theorem textOfFile_of_text (readable : file = .ok (Text.utf8 text)) :
    textOfFile file = .ok text := by
  rw [readable, textOfFile_ok, Text.ofUtf8?_eq_some_iff.mpr rfl]

/-- A file that is not a text gives no text, because it cannot be read or for what it holds. -/
theorem exists_textOfFile_eq_error (notText : ∀ text, file ≠ .ok (Text.utf8 text)) :
    ∃ fault, textOfFile file = .error fault ∧
      (file = .error fault ∨ fault = .notText ∧ ∃ bytes, file = .ok bytes) := by
  cases file with
  | error fault => exact ⟨fault, rfl, .inl rfl⟩
  | ok bytes =>
      refine ⟨.notText, ?_, .inr ⟨rfl, bytes, rfl⟩⟩
      rw [textOfFile_ok]
      cases decoded : Text.ofUtf8? bytes with
      | some text =>
          have isText := Text.ofUtf8?_eq_some_iff.mp decoded
          exact absurd (congrArg Except.ok isText) (notText text)
      | none => rfl

/-! ## Sessions on files -/

variable (table : Precedence) (options : SessionOptions) (path : String)

/-- On a file that is a text there is a session on the text, after a remark on the file. -/
theorem Session.runFile_of_text (readable : file = .ok (Text.utf8 text)) (sink : Sink) :
    let outcome := run table options (Cursor.ofFeed (text.toList.map some)) sink
    runFile table options path file sink =
      ⟨outcome.result.mapError .undelivered, outcome.state,
        .noted (.opening path (Text.utf8 text).length) :: outcome.events⟩ := by
  rw [runFile, textOfFile_of_text readable]
  rfl

theorem Session.runFile_of_error {fault : ReadFault} (failed : textOfFile file = .error fault)
    (sink : Sink) :
    runFile table options path file sink = ⟨.error (.unreadable fault), sink, []⟩ := by
  rw [runFile, failed]

end Files

/-! ## Parsing a file -/

namespace CommandLine

variable {file : Except ReadFault (List UInt8)}

/-- A failure for errors says how many they are. -/
theorem failed_rejected (errors : Nat) (output : List UInt8) :
    failed (.rejected errors) output = ⟨1, output,
      Text.utf8 ("Error: Rejected \x7b errors: " ++ toString errors ++ " \x7d\n")⟩ := by
  have listed : (Failure.rejected errors).listing =
      "Rejected" ++ " \x7b " ++ commaSeparated ["errors" ++ ": " ++ toString errors] ++
        " \x7d" := rfl
  have message : "Error: " ++ (Failure.rejected errors).listing ++ "\n" =
      "Error: Rejected \x7b errors: " ++ toString errors ++ " \x7d\n" := by
    rw [listed]
    apply String.toList_inj.mp
    simp [commaSeparated]
  rw [failed, message]

theorem parseFile_of_error (invocation : Invocation) (input : String) (tokens showTree : Bool)
    {fault : ReadFault} (unreadable : textOfFile file = .error fault) :
    parseFile invocation input tokens showTree file = failed (.unreadable fault) [] := by
  rw [parseFile, Session.runFile_of_error _ _ _ unreadable]
  cases tokens with
  | true => rw [if_pos rfl, unreadable]; rfl
  | false => rfl

theorem parseFile_of_text (invocation : Invocation) (input : String) (tokens showTree : Bool)
    {text : String} {report : SessionReport} {events : List Event}
    (readable : file = .ok (Text.utf8 text))
    (succeeded : Session.run invocation.table ⟨none, showTree, invocation.expressions⟩
      (Cursor.ofFeed (text.toList.map some)) .unlimited = ⟨.ok report, .unlimited, events⟩) :
    let output := Text.utf8 (if tokens then tokenListing text else "") ++ written events ++
      Text.utf8 (input ++ ": " ++ report.summary ++ "\n")
    parseFile invocation input tokens showTree file =
      if report.errors = [] then ⟨0, output, []⟩
      else failed (.rejected report.errors.length) output := by
  intro output
  have listed : (if tokens then tokenListing <$> textOfFile file else .ok "") =
      .ok (if tokens then tokenListing text else "") := by
    rw [textOfFile_of_text readable]
    cases tokens <;> rfl
  rw [parseFile, listed, Session.runFile_of_text _ _ _ readable, succeeded]
  rfl

section Listings

variable {lexemes : List Lexeme}

/-- The lines of a listing, one for each lexeme. -/
theorem lines_iff {lines : List String} :
    List.Forall₂ (fun lexeme line => lexeme.token.Listed line) lexemes lines ↔
      lines = lexemes.map fun lexeme => lexeme.token.listing := by
  constructor
  · intro listed
    induction listed with
    | nil => rfl
    | cons first _ ih => rw [Token.listed_iff.mp first, ih, List.map_cons]
  · rintro rfl
    exact List.forall₂_map_right_iff.mpr
      (List.forall₂_same.mpr fun _ _ => Token.listed_iff.mpr rfl)

theorem tokenListing_eq {text : String}
    (shape : (Scanner.start (text.toList.map some)).lexemes = lexemes) :
    tokenListing text =
      "=== TOKENS ===\n" ++
        String.join ((lexemes.map fun lexeme => lexeme.token.listing).map (· ++ "\n")) ++
        "=== AST ===\n" := by
  have lines : (lexemes.map Lexeme.token).map (fun token => token.listing ++ "\n") =
      (lexemes.map fun lexeme => lexeme.token.listing).map (· ++ "\n") := by
    rw [List.map_map, List.map_map]
    rfl
  rw [← lines, ← shape]
  rfl

end Listings

theorem written_eq (events : List Event) :
    written events =
      events.flatMap fun event =>
        match event with
        | .wrote byte => [byte]
        | _ => [] := by
  refine List.flatMap_congr fun event _ => ?_
  cases event <;> rfl

/-- What comes of parsing a file. What a session on the text writes stands between the listing of
the tokens, if it is wanted, and the summary. -/
theorem exit_of_parse (arguments : List String)
    (readFile : String → Except ReadFault (List UInt8)) (standardInput : List UInt8)
    {table : Precedence} {expressions tokens showTree : Bool} {input : String}
    (asked : request arguments = .invoke ⟨table, expressions, .parse input tokens showTree⟩) :
    let exit := run arguments readFile standardInput
    (∀ text, readFile input = .ok (Text.utf8 text) →
      ∃ (lexemes : List Lexeme) (finish : Lexeme) (lines : List String) (report : SessionReport),
        (Scanner.start (text.toList.map some)).lexemes = lexemes ++ [finish] ∧
        Lexeme.Inner lexemes ∧ finish.token = .endOfInput ∧
        List.Forall₂ (fun lexeme line => lexeme.token.Listed line) (lexemes ++ [finish]) lines ∧
        let session := Session.run table ⟨none, showTree, expressions⟩
          (Cursor.ofFeed (text.toList.map some)) .unlimited
        session.result = .ok report ∧
        lexemes ++ [finish] <+: Event.lexemes session.events ∧
        let listing :=
          "=== TOKENS ===\n" ++ String.join (lines.map (· ++ "\n")) ++ "=== AST ===\n"
        let writes := session.events.flatMap fun event =>
          match event with
          | .wrote byte => [byte]
          | _ => []
        let summary := toString report.items.length ++ " item(s), " ++
          toString report.errors.length ++ " error(s), " ++
          toString report.warnings ++ " warning(s)"
        exit.output = Text.utf8 (if tokens then listing else "") ++ writes ++
          Text.utf8 (input ++ ": " ++ summary ++ "\n") ∧
        exit.code = (if report.errors = [] then 0 else 1) ∧
        exit.messages = Text.utf8 (if report.errors = [] then "" else
          "Error: Rejected \x7b errors: " ++ toString report.errors.length ++ " \x7d\n")) ∧
    ((∀ text, readFile input ≠ .ok (Text.utf8 text)) →
      exit.output = [] ∧ exit.code = 1 ∧
        ∃ fault,
          exit.messages =
            Text.utf8 ("Error: " ++ (Failure.unreadable fault).listing ++ "\n") ∧
          (readFile input = .error fault ∨
            fault = .notText ∧ ∃ bytes, readFile input = .ok bytes)) := by
  intro exit
  have parsed : exit =
      parseFile ⟨table, expressions, .parse input tokens showTree⟩ input tokens showTree
        (readFile input) := by
    simp only [exit, run, asked]
  constructor
  · intro text readable
    obtain ⟨lexemes, finish, shape, isInner, atEnd, _⟩ :=
      Cursor.advance_ofFeed (text.toList.map some)
    have outcome := (Session.performs_run table ⟨none, showTree, expressions⟩
      (Cursor.ofFeed (text.toList.map some))).outcome
    have met := Session.lexemes_script table ⟨none, showTree, expressions⟩ shape isInner atEnd
    rw [parseFile_of_text _ _ _ _ readable outcome, tokenListing_eq shape, written_eq,
      SessionReport.summary, summary_eq] at parsed
    refine ⟨lexemes, finish, _, _, shape, isInner, atEnd, lines_iff.mpr rfl,
      congrArg Outcome.result outcome, ?_, ?_⟩
    · rw [outcome, met]
      exact (List.prefix_append_right_inj lexemes).mpr (List.prefix_append [finish] _)
    · rw [outcome, parsed]
      split
      · exact ⟨rfl, rfl, rfl⟩
      · rw [failed_rejected]
        exact ⟨rfl, rfl, rfl⟩
  · intro notText
    obtain ⟨fault, unreadable, reason⟩ := exists_textOfFile_eq_error notText
    rw [parseFile_of_error _ _ _ _ unreadable] at parsed
    rw [parsed]
    exact ⟨rfl, rfl, fault, rfl, reason⟩

/-- A warning does not make the program fail. An error does, and so does a missing file. -/
theorem exit_of_parse_warned :
    let arguments := ["--and-prec", "7", "parse", "--tokens", "z.fol"]
    let warned := run arguments (fun _ => .ok (Text.utf8 "z")) []
    let rejected := run arguments (fun _ => .ok (Text.utf8 "def")) []
    let missing := run arguments (fun _ => .error .notFound) []
    request arguments = .invoke ⟨⟨7, 20⟩, false, .parse "z.fol" true false⟩ ∧
      (warned.code = 0 ∧ warned.messages = [] ∧
        warned.output = Text.utf8
          ("=== TOKENS ===\nIdentifier(\"z\")\nEof\n=== AST ===\n" ++
            "Warning: unexpected identifier 'z' at top level\n" ++
            "z.fol: 0 item(s), 0 error(s), 1 warning(s)\n")) ∧
      (rejected.code = 1 ∧
        rejected.messages = Text.utf8 "Error: Rejected \x7b errors: 1 \x7d\n" ∧
        rejected.output = Text.utf8
          ("=== TOKENS ===\nDef\nEof\n=== AST ===\n" ++
            "Error: line 1, column 4: expected function name in prototype\n" ++
            "z.fol: 0 item(s), 1 error(s), 0 warning(s)\n")) ∧
      missing.code = 1 ∧ missing.output = [] := by
  intro arguments warned rejected missing
  have asked : request arguments = .invoke ⟨⟨7, 20⟩, false, .parse "z.fol" true false⟩ := by
    decide +kernel
  refine ⟨asked, ?_, ?_, ?_⟩
  · have reported : (Session.run ⟨7, 20⟩ ⟨none, false, false⟩
        (Cursor.ofFeed ("z".toList.map some)) .unlimited).result = .ok ⟨[], [], 1⟩ := by
      decide +kernel
    obtain ⟨_, _, _, _, shape, _, _, listed, found, _, output, code, messages⟩ :=
      (exit_of_parse arguments (fun _ => .ok (Text.utf8 "z")) [] asked).1 "z" rfl
    rw [reported] at found
    cases found
    rw [← shape, lines_iff] at listed
    cases listed
    exact ⟨code, messages, output.trans (by decide +kernel)⟩
  · have reported : (Session.run ⟨7, 20⟩ ⟨none, false, false⟩
        (Cursor.ofFeed ("def".toList.map some)) .unlimited).result =
          .ok ⟨[], [⟨⟨1, 4⟩, .expectedFunctionName⟩], 0⟩ := by
      decide +kernel
    obtain ⟨_, _, _, _, shape, _, _, listed, found, _, output, code, messages⟩ :=
      (exit_of_parse arguments (fun _ => .ok (Text.utf8 "def")) [] asked).1 "def" rfl
    rw [reported] at found
    cases found
    rw [← shape, lines_iff] at listed
    cases listed
    exact ⟨code, messages.trans (by decide +kernel), output.trans (by decide +kernel)⟩
  · obtain ⟨output, code, _⟩ :=
      (exit_of_parse arguments (fun _ => .error .notFound) [] asked).2 nofun
    exact ⟨code, output⟩

end CommandLine

end FormulaReader
