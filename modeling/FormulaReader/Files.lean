import FormulaReader.Text.Utf8

/-!
Files: a tree of folders, and the file that a path names in it. A path is a sequence of names
between slashes; it starts in the working folder, or outside of it if a slash stands first.
-/

namespace FormulaReader

inductive Entry where
  | file (bytes : List UInt8)
  | folder (entries : List (String × Entry))

/-- Why a path gives no text. -/
inductive ReadFault where
  | notFound
  | notFolder
  | isFolder
  /-- A name in the path, or the path as a whole, is longer than the system takes. -/
  | nameTooLong
  /-- The path holds the character that ends a path for the system. -/
  | nulInPath
  | notText
deriving DecidableEq

namespace ReadFault

/-- The fault in words. -/
def text : ReadFault → String
  | .notFound => "No such file or directory"
  | .notFolder => "Not a directory"
  | .isFolder => "Is a directory"
  | .nameTooLong => "File name too long"
  | .nulInPath => "file name contained an unexpected NUL byte"
  | .notText => "stream did not contain valid UTF-8"

/-- The number by which the operating system knows the fault, if it does. -/
def systemCode? : ReadFault → Option Nat
  | .notFound => some 2
  | .notFolder => some 20
  | .isFolder => some 21
  | .nameTooLong => some 36
  | .nulInPath => none
  | .notText => none

/-- The name of the kind of fault. -/
def kind : ReadFault → String
  | .notFound => "NotFound"
  | .notFolder => "NotADirectory"
  | .isFolder => "IsADirectory"
  | .nameTooLong => "InvalidFilename"
  | .nulInPath => "InvalidInput"
  | .notText => "InvalidData"

end ReadFault

/-- How many bytes a name in a path may have. -/
def nameLimit : Nat := 255

/-- How many bytes a path may have. -/
def pathLimit : Nat := 4095

/-- The names between the slashes of a path. -/
def pathSteps : List Char → List String
  | [] => [""]
  | c :: rest =>
      if c = '/' then "" :: pathSteps rest
      else
        match pathSteps rest with
        | [] => [c.toString]
        | step :: steps => (c.toString ++ step) :: steps

namespace Entry

/-- All that is outside of the working folder: no name leads to anything there. -/
def outside : Entry :=
  .folder []

/-- Follows the steps of a path from `here`, which was reached through the folders `trail`, the
last one first. A step that is too long is noticed when it is looked up. -/
def follow (here : Entry) (trail : List Entry) : List String → Except ReadFault Entry
  | [] => .ok here
  | step :: steps =>
      match here with
      | .file _ => .error .notFolder
      | .folder entries =>
          if step = "" || step = "." then follow here trail steps
          else if step = ".." then
            match trail with
            | [] => follow outside [] steps
            | up :: trail => follow up trail steps
          else if nameLimit < (Text.utf8 step).length then .error .nameTooLong
          else
            match entries.lookup step with
            | none => .error .notFound
            | some entry => follow entry (here :: trail) steps

/-- What `path` leads to from the working folder. -/
def find (working : Entry) (path : String) : Except ReadFault Entry :=
  if '\x00' ∈ path.toList then .error .nulInPath
  else if pathLimit < (Text.utf8 path).length then .error .nameTooLong
  else
    match path.toList with
    | [] => .error .notFound
    | '/' :: rest => follow outside [] (pathSteps rest)
    | relative => follow working [] (pathSteps relative)

/-- The bytes of the file at `path`. -/
def read (working : Entry) (path : String) : Except ReadFault (List UInt8) := do
  match ← working.find path with
  | .file bytes => return bytes
  | .folder _ => throw .isFolder

end Entry

/-- The text that was read, if it is in UTF-8. -/
def textOfFile (file : Except ReadFault (List UInt8)) : Except ReadFault String := do
  match Text.ofUtf8? (← file) with
  | some text => return text
  | none => throw .notText

end FormulaReader
