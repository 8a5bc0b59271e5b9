import TestSkeleton.Command.Help

/-!
# The program

Carries out the requests of a command on the real system, and turns the
outcome into output, messages and an exit code.
-/

namespace TestSkeleton.Program

open Files (Fault FaultKind LockFault LockMode Reply Request)

/-- What the program keeps while it runs. -/
structure State where
  /-- The open lock files by their tickets. -/
  locks : IO.Ref (List (Nat × IO.FS.Handle))
  nextTicket : IO.Ref Nat
  /-- A number that no other running program has drawn. -/
  processId : Nat

/-- The fault with a system error number. -/
def numberedFault (number : Nat) (details : String) : Fault :=
  match number with
  | 2 => .missing
  | 13 => ⟨.permissionDenied, "Permission denied (os error 13)"⟩
  | 16 => .inUse
  | 17 => .taken
  | 20 => .throughFile
  | 21 => .directory
  | 28 => ⟨.noSpace, "No space left on device (os error 28)"⟩
  | 36 => .tooLong
  | number => ⟨.other, details ++ " (os error " ++ toString number ++ ")"⟩

/-- The fault for a code of the system, which is an error number or its
negation. -/
def systemFault (code : UInt32) (details : String) : Fault :=
  numberedFault (if code < 0x80000000 then code else 0 - code).toNat details

/-- The fault behind an error of the system. -/
def faultOf : IO.Error → Fault
  | .alreadyExists _ number details => systemFault number details
  | .otherError number details => systemFault number details
  | .resourceBusy number details => systemFault number details
  | .resourceVanished number details => systemFault number details
  | .unsupportedOperation number details => systemFault number details
  | .hardwareFault number details => systemFault number details
  | .unsatisfiedConstraints number details => systemFault number details
  | .illegalOperation number details => systemFault number details
  | .protocolError number details => systemFault number details
  | .timeExpired number details => systemFault number details
  | .interrupted _ number details => systemFault number details
  | .noFileOrDirectory _ number details => systemFault number details
  | .invalidArgument _ number details => systemFault number details
  | .permissionDenied _ number details => systemFault number details
  | .resourceExhausted _ number details => systemFault number details
  | .inappropriateType _ number details => systemFault number details
  | .noSuchThing _ number details => systemFault number details
  | .unexpectedEof => ⟨.other, "failed to fill whole buffer"⟩
  | .userError details => ⟨.other, details⟩

/-- Runs something that may raise an error of the system. -/
def attempt {α : Type} (body : IO α) : IO (Except Fault α) := do
  try
    return .ok (← body)
  catch error => return .error (faultOf error)

/-- Whether a path names a directory. -/
def isDirectory (path : String) : IO Bool := do
  try (← IO.FS.realPath path).isDir catch _ => return false

/-- The fault of a directory that was not created, unless it exists. -/
def unlessDirectory (path : String) (fault : Fault) : IO (Except Fault Unit) := do
  return if (← isDirectory path) then .ok () else .error fault

/-- Creates a directory after the directories on the way to it, of which at
most `depth` are missing. -/
def createDirsWithin : Nat → String → IO (Except Fault Unit)
  | 0, _ => return .error .missing
  | depth + 1, path => do
    if path.isEmpty then return .ok ()
    else
      match (← attempt (IO.FS.createDir path)) with
      | .ok () => return .ok ()
      | .error fault =>
        match fault.kind, Path.parent? path with
        | .notFound, none => return .error fault
        | .notFound, some parent =>
          match (← createDirsWithin depth parent) with
          | .error fault => return .error fault
          | .ok () =>
            match (← attempt (IO.FS.createDir path)) with
            | .ok () => return .ok ()
            | .error fault => unlessDirectory path fault
        | _, _ => unlessDirectory path fault

/-- Tries to take a lock until it is held or no try is left. -/
def poll (handle : IO.FS.Handle) (mode : LockMode) : Nat → IO Bool
  | 0 => handle.tryLock (mode == .exclusive)
  | tries + 1 => do
    if (← handle.tryLock (mode == .exclusive)) then return true
    else
      IO.sleep 50
      poll handle mode tries

/-- Opens a lock file and locks it. -/
def takeLock (state : State) (path : String) (mode : LockMode) (timeoutMs : Nat) :
    IO (Except LockFault Nat) := do
  let taken ← attempt do
    let handle ← IO.FS.Handle.mk path .append
    return (handle, ← poll handle mode ((timeoutMs + 49) / 50))
  match taken with
  | .error fault => return .error (.system fault)
  | .ok (_, false) => return .error .timedOut
  | .ok (handle, true) =>
    let ticket ← state.nextTicket.modifyGet fun n => (n, n + 1)
    state.locks.modify fun locks => (ticket, handle) :: locks
    return .ok ticket

/-- Gives up a lock. -/
def giveUpLock (state : State) (ticket : Nat) : IO Unit := do
  let locks ← state.locks.get
  state.locks.set (locks.filter fun lock => lock.1 != ticket)
  match locks.lookup ticket with
  | some handle => try handle.unlock catch _ => return ()
  | none => return ()

/-- Shows a question and reads one line. -/
def askUser (question : String) : IO (Except Fault String) := do
  IO.eprint question
  attempt (do (← IO.getStdin).getLine)

/-- Carries out a request. -/
def serve (state : State) (request : Request) : IO (Reply request) :=
  match request with
  | .createDirs path => createDirsWithin ((Path.segments path).length + 1) path
  | .lock path mode timeoutMs => takeLock state path mode timeoutMs
  | .release ticket => giveUpLock state ticket
  | .exists path => do return (← attempt (IO.FS.realPath path)).toBool
  | .read path => attempt (IO.FS.readBinFile path)
  | .write path content => attempt (IO.FS.writeBinFile path content)
  | .rename source target => attempt (IO.FS.rename source target)
  | .remove path => attempt (IO.FS.removeFile path)
  | .realPath path => do return (← attempt (IO.FS.realPath path)).map toString
  | .currentDir => do return (← attempt IO.currentDir).map toString
  | .processId => return state.processId
  | .ask question => askUser question
  | .warn warning => IO.eprint (Report.Diagnostic.warning { message := warning.text } false)

/-- What the system says about the user and the terminal. -/
def findHost : IO Command.Host := do
  let colors := (← IO.getEnv "NO_COLOR").isNone
  let home := (← IO.getEnv "HOME").filter fun home => !home.isEmpty
  let dataHome ← IO.getEnv "XDG_DATA_HOME"
  let configHome ← IO.getEnv "XDG_CONFIG_HOME"
  return {
    dirs := home.map fun home => UserDirs.ofHome home dataHome configHome
    canAsk := ← (← IO.getStdin).isTty
    outputColors := colors && (← (← IO.getStdout).isTty)
    messageColors := colors && (← (← IO.getStderr).isTty) }

/-- Runs the command that some words ask for. -/
def run (words : List String) : IO UInt32 := do
  let drawn ← IO.getRandomBytes 4
  let state : State := {
    locks := ← IO.mkRef []
    nextTicket := ← IO.mkRef 0
    processId := drawn.foldl (fun n b => 256 * n + b.toNat) 0 }
  let outcome ← (Command.runWords (← findHost) words).perform (serve state)
  IO.eprint outcome.messages
  IO.print outcome.output
  (← IO.getStdout).flush
  return UInt32.ofNat outcome.exitCode

end TestSkeleton.Program

/-- Runs the command line. -/
def main (words : List String) : IO UInt32 :=
  TestSkeleton.Program.run words
