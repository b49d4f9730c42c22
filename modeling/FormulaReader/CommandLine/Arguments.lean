import FormulaReader.Log
import FormulaReader.Precedence

/-!
Arguments of the command line. Settings take a value, flags do not; some hold for every command
and may stand before the command as well as after it.
-/

namespace FormulaReader.CommandLine

/-- Where an argument stands: before the command, or after the command of that name. -/
inductive Place where
  | top
  | repl
  | parse
deriving DecidableEq

inductive Flag where
  | expressions
  | showTree
  | tokens
deriving DecidableEq

inductive Setting where
  | andPrecedence
  | orPrecedence
  | logLevel
deriving DecidableEq

def Flag.ofName? (name : String) : Option Flag :=
  if name = "expressions" then some .expressions
  else if name = "show-ast" then some .showTree
  else if name = "tokens" then some .tokens
  else none

def Setting.ofName? (name : String) : Option Setting :=
  if name = "and-prec" then some .andPrecedence
  else if name = "or-prec" then some .orPrecedence
  else if name = "log-level" then some .logLevel
  else none

/-- Whether a flag is known at a place. Settings are known everywhere. -/
def Place.knows : Place → Flag → Bool
  | _, .expressions => true
  | .repl, .showTree => true
  | .parse, .showTree => true
  | .parse, .tokens => true
  | _, _ => false

/-- The kinds of arguments, told apart by their first characters. -/
inductive Argument where
  | setting (setting : Setting) (value : Option String)
  | flag (flag : Flag)
  | version
  | help
  | endOfOptions
  | unknown
  | word (word : String)

namespace Argument

/-- The argument that begins with two dashes and goes on with `text`. A value may be attached
behind an equals sign, to a setting only. -/
def ofLong (text : List Char) : Argument :=
  let name := String.ofList (text.takeWhile (· ≠ '='))
  match Setting.ofName? name, text.dropWhile (· ≠ '=') with
  | some known, [] => .setting known none
  | some known, _ :: value => .setting known (some (String.ofList value))
  | none, _ :: _ => .unknown
  | none, [] =>
      match Flag.ofName? name with
      | some known => .flag known
      | none =>
          if name = "help" then .help
          else if name = "version" then .version
          else .unknown

def ofText (text : String) : Argument :=
  match text.toList with
  | ['-', '-'] => .endOfOptions
  | '-' :: '-' :: long => ofLong long
  | '-' :: 'h' :: _ => .help
  | '-' :: 'V' :: _ => .version
  | '-' :: _ :: _ => .unknown
  | _ => .word text

end Argument

/-- What was given at one place. -/
structure Given where
  andPrecedence : Option Nat
  orPrecedence : Option Nat
  logLevel : Option Level
  flags : List Flag
  input : Option String

def Given.nothing : Given :=
  ⟨none, none, none, [], none⟩

/-- The number that decimal digits stand for. -/
def digits? (text : List Char) : Option Nat :=
  if text ≠ [] && text.all Char.isDigit then
    some (text.foldl (fun n c => 10 * n + (c.toNat - '0'.toNat)) 0)
  else none

/-- A precedence on the command line: digits with or without a sign, from 0 to 65535. -/
def precedence? (value : String) : Option Nat := do
  let n ←
    match value.toList with
    | '+' :: digits => digits? digits
    | '-' :: digits => (digits? digits).filter (· = 0)
    | digits => digits? digits
  guard (n ≤ 65535)
  return n

/-- A log level by its name. -/
def level? (value : String) : Option Level :=
  if value = "error" then some .error
  else if value = "warn" then some .warning
  else if value = "info" then some .info
  else if value = "debug" then some .debug
  else if value = "trace" then some .trace
  else none

namespace Given

/-- Raises a flag, which may be done once at one place. -/
def raise? (given : Given) (flag : Flag) : Option Given :=
  if flag ∈ given.flags then none else some { given with flags := flag :: given.flags }

/-- Sets a setting, which may be done once at one place. -/
def set? (given : Given) (setting : Setting) (value : String) : Option Given := do
  match setting with
  | .andPrecedence =>
      guard given.andPrecedence.isNone
      return { given with andPrecedence := some (← precedence? value) }
  | .orPrecedence =>
      guard given.orPrecedence.isNone
      return { given with orPrecedence := some (← precedence? value) }
  | .logLevel =>
      guard given.logLevel.isNone
      return { given with logLevel := some (← level? value) }

/-- Names the input, which may be done once, and only for the command that takes one. -/
def name? (given : Given) (place : Place) (word : String) : Option Given := do
  guard (place = .parse)
  guard given.input.isNone
  return { given with input := some word }

end Given

/-- What the arguments at one place come to. -/
inductive Scan where
  | wrong
  | version
  | help
  | complete (given : Given)
  | command (given : Given) (name : String) (rest : List String)

/-- Whether an argument can be the value of the setting before it. -/
def isValue (argument : String) : Bool :=
  match argument.toList with
  | '-' :: _ :: _ => false
  | _ => true

/-- Takes the arguments that follow `--`, all of which are words. -/
def scanWords (place : Place) (given : Given) : List String → Scan
  | [] => .complete given
  | word :: rest =>
      match given.name? place word with
      | some given => scanWords place given rest
      | none => .wrong

/-- Takes the arguments at one place, in order. The first wrong one decides, unless the version
or help was asked for before it. -/
def scan (place : Place) (given : Given) : List String → Scan
  | [] => .complete given
  | argument :: rest =>
      match Argument.ofText argument with
      | .endOfOptions => scanWords place given rest
      | .setting setting (some value) =>
          match given.set? setting value with
          | some given => scan place given rest
          | none => .wrong
      | .setting setting none =>
          match rest with
          | [] => .wrong
          | value :: further =>
              if isValue value then
                match given.set? setting value with
                | some given => scan place given further
                | none => .wrong
              else .wrong
      | .flag flag =>
          if place.knows flag then
            match given.raise? flag with
            | some given => scan place given rest
            | none => .wrong
          else .wrong
      | .help => .help
      | .version => if place = .top then .version else .wrong
      | .unknown => .wrong
      | .word word =>
          if place = .top then .command given word rest
          else
            match given.name? place word with
            | some given => scan place given rest
            | none => .wrong

inductive Command where
  | repl (showTree : Bool)
  | parse (input : String) (tokens showTree : Bool)
deriving DecidableEq

/-- What to do, with the settings that hold for every command. -/
structure Invocation where
  table : Precedence
  expressions : Bool
  command : Command
deriving DecidableEq

inductive Request where
  | wrong
  | version
  | help
  | invoke (invocation : Invocation)
deriving DecidableEq

/-- The invocation of a command, from what was given before it and after it. A setting after the
command wins over the same setting before it. -/
def invocation (before after : Given) (command : Command) : Invocation :=
  let precedence (given : Given → Option Nat) (standard : Int32) : Int32 :=
    ((given after).or (given before)).elim standard Int32.ofNat
  { table :=
      ⟨precedence Given.andPrecedence Precedence.standard.and,
        precedence Given.orPrecedence Precedence.standard.or⟩
    expressions := decide (Flag.expressions ∈ before.flags ++ after.flags)
    command }

/-- The request that the arguments make. Without a command the interactive one is meant. -/
def request (arguments : List String) : Request :=
  match scan .top .nothing arguments with
  | .wrong => .wrong
  | .version => .version
  | .help => .help
  | .complete given => .invoke (invocation given .nothing (.repl false))
  | .command before name rest =>
      if name = "repl" then
        match scan .repl .nothing rest with
        | .complete after =>
            .invoke (invocation before after (.repl (decide (Flag.showTree ∈ after.flags))))
        | .help => .help
        | _ => .wrong
      else if name = "parse" then
        match scan .parse .nothing rest with
        | .complete after =>
            match after.input with
            | some input =>
                .invoke (invocation before after (.parse input
                  (decide (Flag.tokens ∈ after.flags)) (decide (Flag.showTree ∈ after.flags))))
            | none => .wrong
        | .help => .help
        | _ => .wrong
      else if name = "help" then
        if rest ∈ [[], ["repl"], ["parse"], ["help"]] then .help else .wrong
      else .wrong

end FormulaReader.CommandLine
