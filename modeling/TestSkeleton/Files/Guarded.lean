import TestSkeleton.Files.Action
import TestSkeleton.Path.Parts
import TestSkeleton.Failure

/-!
# Guarded writing

A file that several processes write is guarded by a lock on a file of its
own and replaced in one step, so that a reader sees either the old content
or the new.

* `withLock` runs an action while a lock is held and releases it however the
  action ends.
* `replace` writes the new content beside the target and renames it over the
  target.  If that fails, the file beside the target is removed.
-/

namespace TestSkeleton.Files

/-- Creates the directory that holds what a path names. -/
def createParent (path : String) : Action (Except Fault Unit) :=
  match Path.parent? path with
  | some parent => Action.createDirs parent
  | none => pure (.ok ())

/-- Takes a lock on a lock file, which is created if it is missing. -/
def acquire (path : String) (mode : LockMode) (timeoutMs : Nat) :
    Action (Except Failure Nat) := do
  match (← createParent path) with
  | .error fault => return .error (.fileWrite path fault)
  | .ok () =>
    match (← Action.lock path mode timeoutMs) with
    | .ok ticket => return .ok ticket
    | .error .timedOut => return .error (.lockTimeout path)
    | .error (.system fault) => return .error (.fileWrite path fault)

/-- Runs an action while a lock is held.  `refused` is the result without
the lock. -/
def withLock {α : Type} (path : String) (mode : LockMode) (timeoutMs : Nat)
    (refused : Failure → α) (body : Action α) : Action α := do
  match (← acquire path mode timeoutMs) with
  | .error failure => return refused failure
  | .ok ticket =>
    let result ← body
    Action.release ticket
    return result

/-- The name beside `path` under which a process writes its new content. -/
def temporaryName (path : String) (processId : Nat) : String :=
  Path.withLastName path
    ("." ++ (Path.lastName? path).getD "out" ++ "." ++ toString processId ++ ".tmp")

/-- Writes the new content under one name and moves it to another. -/
def writeAndRename (temporary path : String) (content : ByteArray) :
    Action (Except Fault Unit) := do
  match (← Action.write temporary content) with
  | .error fault => return .error fault
  | .ok () => Action.rename temporary path

/-- Replaces a file, which keeps its content if that fails. -/
def replace (path : String) (content : ByteArray) : Action (Except Failure Unit) := do
  match (← createParent path) with
  | .error fault => return .error (.fileWrite path fault)
  | .ok () =>
    let temporary := temporaryName path (← Action.processId)
    match (← writeAndRename temporary path content) with
    | .ok () => return .ok ()
    | .error fault =>
      let _ ← Action.remove temporary
      return .error (.fileWrite path fault)

end TestSkeleton.Files
