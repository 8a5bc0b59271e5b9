import TestSkeleton.Files.Fault

/-!
# Failures

Every reason for which a command ends without its result, and the words for
it: a category, a message, a detail and a hint.

A failure is an input failure if another file, line or signature would have
avoided it; the exit code of a command tells input failures from the rest.
-/

namespace TestSkeleton

open Files (Fault)

/-- Why a command has no result. -/
inductive Failure where
  /-- The source file has the wrong extension. -/
  | unsupportedFileType (path expected : String)
  /-- No source file was given. -/
  | noSource
  /-- The selected line is blank. -/
  | emptySelection
  /-- The selected line holds no signature. -/
  | invalidSignature (line reason : String)
  /-- The system does not say where a file belongs. -/
  | hostUnavailable (message : String)
  /-- A test file has no place for another case. -/
  | malformedTestFile (path reason : String)
  /-- A file cannot be read. -/
  | fileRead (path : String) (fault : Fault)
  /-- A file cannot be written. -/
  | fileWrite (path : String) (fault : Fault)
  /-- Another holder kept a lock for too long. -/
  | lockTimeout (path : String)
  /-- The settings are not usable. -/
  | settings (message : String)
  /-- A path cannot be followed. -/
  | io (fault : Fault)
  /-- A settings file is not TOML, or a value in it has the wrong type. -/
  | toml
  /-- A text is not JSON, or a value in it has the wrong type. -/
  | json
deriving DecidableEq, Inhabited, Repr

namespace Failure

/-- The category, which starts a rendered failure. -/
def category : Failure → String
  | .unsupportedFileType .. => "UnsupportedFileType"
  | .noSource => "NoActiveDocument"
  | .emptySelection => "EmptySelection"
  | .invalidSignature .. => "InvalidSignature"
  | .hostUnavailable _ => "HostUnavailable"
  | .malformedTestFile .. => "MalformedTestFile"
  | .fileRead .. => "FileRead"
  | .fileWrite .. => "FileWrite"
  | .lockTimeout _ => "LockTimeout"
  | .settings _ => "Config"
  | .io _ => "IO"
  | .toml => "TomlParse"
  | .json => "Json"

/-- The failure in one sentence. -/
def sentence : Failure → String
  | .unsupportedFileType path expected =>
    "Templates are created only for ." ++ expected ++ " files: " ++ path
  | .noSource => "No source file given"
  | .emptySelection => "Selected line is empty"
  | .invalidSignature line _ => "Invalid method signature: " ++ line
  | .hostUnavailable message => "Host environment unavailable: " ++ message
  | .malformedTestFile path _ => "Test file is not in the generated layout: " ++ path
  | .fileRead path _ => "Failed to read file: " ++ path
  | .fileWrite path _ => "Failed to write file: " ++ path
  | .lockTimeout path => "Timed out waiting for lock on " ++ path
  | .settings message => "Configuration error: " ++ message
  | .io fault => "IO error: " ++ fault.text
  | .toml => "TOML parse error: the settings do not follow the expected format"
  | .json => "JSON error: the text does not follow the expected format"

/-- The message after the category. -/
def message : Failure → String
  | .unsupportedFileType _ expected =>
    "Sorry! Templates are created only for ." ++ expected ++ " files"
  | .noSource => "No source file to generate a test for"
  | .emptySelection => "Select the method name for which you want to create a test"
  | .invalidSignature .. => "Select a valid method name for which you want to create a test"
  | .hostUnavailable message => message
  | .malformedTestFile path _ => path
  | .fileRead path _ => path
  | .fileWrite path _ => path
  | .lockTimeout path => path
  | .settings message => message
  | .io fault => fault.text
  | .toml => "the settings do not follow the expected format"
  | .json => "the text does not follow the expected format"

/-- What is known beyond the message. -/
def detail? : Failure → Option String
  | .unsupportedFileType path _ => some path
  | .invalidSignature line reason => some (reason ++ ": `" ++ line ++ "`")
  | .malformedTestFile _ reason => some reason
  | .fileRead _ fault => some fault.description
  | .fileWrite _ fault => some fault.description
  | _ => none

/-- What helps against a file fault. -/
def hintForFault? (fault : Fault) : Option String :=
  match fault.kind with
  | .notFound => some "Check that the file path exists"
  | .permissionDenied => some "Check file permissions"
  | _ => none

/-- What the user can do. -/
def hint? : Failure → Option String
  | .unsupportedFileType .. =>
    some "Run the command on the implementation file, not the header"
  | .noSource => some "Pass the source file path as the first argument"
  | .emptySelection => some "Point --line at the line holding the function declaration"
  | .invalidSignature .. =>
    some "The line must contain `(` followed later by `)`, e.g. `int Add(int a, int b)`"
  | .hostUnavailable _ =>
    some "Pass --prefs-file to store output directory choices explicitly"
  | .malformedTestFile .. =>
    some "The test file must end with the closing brace of its namespace block"
  | .fileRead _ fault => hintForFault? fault
  | .fileWrite _ fault => hintForFault? fault
  | .lockTimeout _ => some "Another gtest-scaffold process is writing; retry shortly"
  | .settings _ => some "Check the config file format against `gtest-scaffold init`"
  | .toml => some "Check the config file format against `gtest-scaffold init`"
  | .io _ => none
  | .json => none

/-- Whether the input caused the failure. -/
def isInput : Failure → Bool
  | .unsupportedFileType .. => true
  | .noSource => true
  | .emptySelection => true
  | .invalidSignature .. => true
  | _ => false

/-- The exit code of a command that fails: 1 for input failures, 2 for all
others. -/
def exitCode (failure : Failure) : Nat :=
  if failure.isInput then 1 else 2

end Failure

end TestSkeleton
