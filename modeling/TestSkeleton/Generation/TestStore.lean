import TestSkeleton.Preferences.Outputs
import TestSkeleton.Source.FolderPrompt
import TestSkeleton.TestFile.Insertion
import TestSkeleton.TestFile.CaseNames

/-!
# Test files and where they go

A `TestStore` knows the remembered directories and guards the test files
with locks.

* `TestStore.resolve` decides the directory for a source file.  A directory
  that is chosen now is remembered later, by `TestStore.commit`, once the
  test file is written.  Source files and directories are taken as texts.
* `TestStore.writeCase` creates a test file or adds a case to it, under a
  lock for that file.
-/

namespace TestSkeleton.Generation

open Files (Action withLock)
open Preferences (Store)
open Source (FolderPrompt)

/-- A directory that is to be remembered for a source file. -/
structure PendingOutput where
  source : String
  directory : String
deriving DecidableEq, Inhabited, Repr

/-- The directory for the tests of a source file. -/
structure ResolvedOutput where
  directory : String
  /-- Whether nothing was remembered for the source file. -/
  firstTime : Bool
  pending : Option PendingOutput
deriving DecidableEq, Inhabited, Repr

/-- How a case came into its file. -/
inductive WriteOutcome where
  | created
  | appended
deriving DecidableEq, Inhabited, Repr

/-- The word for an outcome. -/
def WriteOutcome.word : WriteOutcome → String
  | .created => "created"
  | .appended => "appended"

/-- The remembered directories and the locks for test files. -/
structure TestStore where
  preferences : Store
  lockDir : String
  timeoutMs : Nat := Preferences.defaultTimeoutMs
deriving DecidableEq, Inhabited

/-! ## Test files -/

/-- Creates or replaces a test file. -/
def writeNew (path document : String) : Action (Except Failure Unit) :=
  Files.replace path document.toUTF8

/-- Adds a case to a test file.  A case of the same name is only warned
about. -/
def appendCase (path caseName caseText : String) : Action (Except Failure Unit) := do
  match (← Action.readText path) with
  | .error fault => return .error (.fileRead path fault)
  | .ok text =>
    if (TestFile.caseNames text.toList).contains caseName.toList then
      Action.warn .caseExists
    match TestFile.insertCase text.toList caseText.toList with
    | .error malformed => return .error (.malformedTestFile path malformed.reason)
    | .ok updated => Files.replace path (String.ofList updated).toUTF8

namespace TestStore

/-- Writes a case: a whole document if there is no file, and the case alone
otherwise. -/
def writeCase (store : TestStore) (path document caseName caseText : String) :
    Action (Except Failure WriteOutcome) :=
  withLock (StatePaths.lockFile store.lockDir path) .exclusive store.timeoutMs .error do
    if (← Action.pathExists path) then
      return (← appendCase path caseName caseText).map fun () => .appended
    else
      return (← writeNew path document).map fun () => .created

/-! ## Directories -/

/-- A directory seen from the current one, as a path from the root if that
is possible. -/
def absoluteOrSame (directory : String) : Action String := do
  if directory.isEmpty then return directory
  else if Path.isAbsolute directory then return Path.absolute "/" directory
  else
    match (← Action.currentDir) with
    | .ok current => return Path.absolute current directory
    | .error _ => return directory

/-- Decides the directory for the tests of a source file.  The first time,
the prompt chooses; after that the remembered directory is used while the
flag is on, and the directory of the source file otherwise. -/
def resolve (store : TestStore) (source : String) (prompt : FolderPrompt) :
    Action ResolvedOutput := do
  let own := Path.containingDir source
  match Preferences.Outputs.lookup? store.preferences.document source with
  | some stored =>
    return {
      directory := if stored.inUse then stored.directory.getD own else own
      firstTime := false
      pending := none }
  | none =>
    let directory ←
      match (← prompt.choose source) with
      | some directory => absoluteOrSame directory
      | none => pure own
    return { directory, firstTime := true, pending := some { source, directory } }

/-- Remembers the directory that was chosen, if one was. -/
def commit (store : TestStore) (pending : Option PendingOutput) :
    Action (Except Failure Unit × TestStore) := do
  match pending with
  | none => return (.ok (), store)
  | some pending =>
    let (result, preferences) ←
      Preferences.Outputs.remember store.preferences pending.source (.ofText pending.directory)
    return (result, { store with preferences })

end TestStore

/-- The test store over a preference file. -/
def openTestStore (preferenceFile : String) (timeoutMs : Nat) :
    Action (Except Failure TestStore) := do
  match (← Preferences.FileStore.load preferenceFile timeoutMs) with
  | .error failure => return .error failure
  | .ok store =>
    return .ok {
      preferences := .file store
      lockDir := StatePaths.lockDir preferenceFile
      timeoutMs }

end TestSkeleton.Generation
