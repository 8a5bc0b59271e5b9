import TestSkeleton.Path.Bytes
import TestSkeleton.Preferences.Store
import TestSkeleton.Report.Remembered

/-!
# Remembered directories

Which directory holds the tests of a source file is kept in the preferences.
The root collection maps source paths to directories and holds one flag, and
a collection of its own marks each source file that was ever remembered.

* `lookup?` is what is remembered for a source file.
* `remember` records a directory and turns the flag on.  It is the text of the
  directory that is recorded, and a directory that is no text is found again
  as another one.
* `entries` lists everything, in the order of the first time.

A source file is named by its text, so that two paths with one text are one
source file here.
-/

namespace TestSkeleton.Preferences.Outputs

open Files (Action)
open TestSkeleton.Path (SystemPath)

/-- The collection with the directories. -/
def rootCollection : String := "Gtest Template"

/-- The flag for using remembered directories. -/
def useFlag : String := "useUserDefinedPath"

/-- The collection that marks a source file. -/
def markerFor (source : String) : String :=
  rootCollection ++ "\\" ++ source

/-- What is remembered for a source file. -/
structure Stored where
  /-- The directory, unless it is missing or empty. -/
  directory : Option String
  /-- Whether remembered directories are used. -/
  inUse : Bool
deriving DecidableEq, Inhabited, Repr

/-- Whether remembered directories are used. -/
def inUse (document : Document) : Bool :=
  (document.getBool? rootCollection useFlag).getD false

/-- What is remembered for a source file, or nothing before the first
time. -/
def lookup? (document : Document) (source : String) : Option Stored :=
  if document.contains (markerFor source) then
    some {
      directory := (document.getString? rootCollection source).filter (fun d => !d.isEmpty)
      inUse := inUse document }
  else none

/-- The changes that remember a directory. -/
def rememberChanges (source directory : String) : List Change :=
  [.create rootCollection, .create (markerFor source), .setBool rootCollection useFlag true,
    .setString rootCollection source directory]

/-- Remembers the directory of a source file, as a text, and makes it last. -/
def remember (store : Store) (source : String) (directory : SystemPath) :
    Action (Except Failure Unit × Store) :=
  (store.recordAll (rememberChanges source directory.text)).save

theorem remember_ofText (store : Store) (source directory : String) :
    remember store source (.ofText directory) =
      (store.recordAll (rememberChanges source directory)).save := by
  rw [remember, SystemPath.text_ofText]

/-- Every source file with its directory, in order. -/
def entries (document : Document) : List Report.RememberedEntry :=
  (document.stringKeys rootCollection).filterMap fun source =>
    (document.getString? rootCollection source).map fun directory => { source, directory }

end TestSkeleton.Preferences.Outputs
