import TestSkeleton.Generation.Run

/-!
# Where the tests of a source file go

The test file of a source file and why it is that one, found without asking
anybody and without writing anything.

* `destination` uses the same directory that a generation without a prompt
  resolves.
* `Destination.render` is the answer in words.
-/

namespace TestSkeleton.Generation

open Files (Action)
open Preferences.Outputs (Stored)

/-- What is remembered about the directory of a source file. -/
inductive Standing where
  /-- Nothing is remembered. -/
  | unknown
  /-- The remembered directory is used. -/
  | remembered
  /-- A directory is remembered, but remembered directories are not used. -/
  | switchedOff
  /-- The source file is remembered without a directory. -/
  | withoutDirectory
deriving DecidableEq, Inhabited, Repr

/-- What a look into the preferences says. -/
def Standing.ofStored : Option Stored → Standing
  | none => .unknown
  | some stored =>
    match stored.directory with
    | none => .withoutDirectory
    | some _ => if stored.inUse then .remembered else .switchedOff

/-- The words for what is remembered. -/
def Standing.text : Standing → String
  | .unknown => "not remembered yet, the directory is asked for on first generate"
  | .remembered => "remembered directory"
  | .switchedOff =>
    "remembered, but remembered directories are off; using the source directory"
  | .withoutDirectory => "remembered without a directory; using the source directory"

/-- Where the tests of a source file go. -/
structure Destination where
  /-- The path of the source file from the root. -/
  source : String
  testFile : String
  standing : Standing
deriving DecidableEq, Inhabited, Repr

/-- The answer in words, one line for each part. -/
def Destination.render (destination : Destination) : String :=
  "Source:    " ++ destination.source ++ "\n" ++
  "Test file: " ++ destination.testFile ++ "\n" ++
  "Status:    " ++ destination.standing.text ++ "\n"

/-- Finds where the tests of a source file go. -/
def destination (store : TestStore) (naming : Naming) (source : String) :
    Action (Except Failure Destination) := do
  match (← absoluteSource source) with
  | .error fault => return .error (.io fault)
  | .ok absolute =>
    let resolved ← store.resolve absolute .declined
    return .ok {
      source := absolute
      testFile := Path.join resolved.directory (naming.testFileOf absolute)
      standing :=
        .ofStored (Preferences.Outputs.lookup? store.preferences.document absolute) }

end TestSkeleton.Generation
