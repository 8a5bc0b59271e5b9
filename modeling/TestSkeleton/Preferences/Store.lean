import TestSkeleton.Preferences.Encoding
import TestSkeleton.Files.Guarded
import TestSkeleton.StatePaths

/-!
# Preference stores

A store shows a preference document and records the changes made to it.  A
store in memory has nothing to save.  A store on a file keeps the changes
since its last save, and saving carries them out on the document that the
file holds by then, so that two processes do not lose each other's changes.

* `FileStore.load` reads the file under a shared lock.
* `FileStore.save` reads the file again, carries out the pending changes and
  replaces the file, all under an exclusive lock.
* `Store` is either kind of store.
-/

namespace TestSkeleton.Preferences

open Files (Action Fault withLock)

/-- How long a lock is waited for, in milliseconds. -/
def defaultTimeoutMs : Nat := 5000

/-! ## The file -/

/-- The document in a file.  A file that is missing, cannot be read or holds
something else counts as empty. -/
def readFile (path : String) : Action Document := do
  match (← Action.readText path) with
  | .ok text =>
    match Document.parse? text with
    | some document => return document
    | none =>
      Action.warn .corruptPreferences
      return {}
  | .error fault =>
    if fault.kind == .notFound then return {}
    else
      Action.warn .unreadablePreferences
      return {}

/-- The text of a file that holds a document. -/
def fileText (document : Document) : String :=
  document.render ++ "\n"

/-- Replaces the document in a file. -/
def writeFile (path : String) (document : Document) : Action (Except Failure Unit) :=
  Files.replace path (fileText document).toUTF8

/-! ## A store on a file -/

/-- The view of a preference file that one process has. -/
structure FileStore where
  path : String
  timeoutMs : Nat
  /-- The document that the store shows. -/
  document : Document := {}
  /-- The changes since the last save, in order. -/
  pending : List Change := []
deriving DecidableEq, Inhabited

namespace FileStore

/-- The file that guards the preference file. -/
def lockPath (store : FileStore) : String :=
  StatePaths.preferenceLock store.path

/-- Opens the store on a file.  A missing file is an empty document. -/
def load (path : String) (timeoutMs : Nat) : Action (Except Failure FileStore) :=
  withLock (StatePaths.preferenceLock path) .shared timeoutMs .error do
    let document ← readFile path
    return .ok { path, timeoutMs, document }

/-- Records a change and shows it. -/
def record (store : FileStore) (change : Change) : FileStore :=
  { store with document := store.document.apply change, pending := store.pending ++ [change] }

/-- Saves the pending changes.  If that fails the store is as before. -/
def save (store : FileStore) : Action (Except Failure Unit × FileStore) := do
  if store.pending.isEmpty then return (.ok (), store)
  else
    withLock store.lockPath .exclusive store.timeoutMs
      (fun failure => (.error failure, store)) do
        let document := (← readFile store.path).applyAll store.pending
        match (← writeFile store.path document) with
        | .error failure => return (.error failure, store)
        | .ok () => return (.ok (), { store with document, pending := [] })

end FileStore

/-! ## Either kind of store -/

/-- A store of preferences. -/
inductive Store where
  /-- A store with nothing to save. -/
  | memory (document : Document)
  | file (store : FileStore)
deriving DecidableEq

instance : Inhabited Store := ⟨.memory {}⟩

namespace Store

/-- The document that the store shows. -/
def document : Store → Document
  | .memory document => document
  | .file store => store.document

/-- Carries out a change. -/
def record (store : Store) (change : Change) : Store :=
  match store with
  | .memory document => .memory (document.apply change)
  | .file store => .file (store.record change)

/-- Carries out some changes in order. -/
def recordAll (store : Store) (changes : List Change) : Store :=
  changes.foldl record store

/-- Makes the changes last. -/
def save (store : Store) : Action (Except Failure Unit × Store) :=
  match store with
  | .memory document => pure (.ok (), .memory document)
  | .file store => do
    let (result, store) ← store.save
    return (result, .file store)

end Store

end TestSkeleton.Preferences
