import TestSkeleton.Files.Action
import TestSkeleton.Files.Tree

/-!
# A system in memory

The requests of an action, carried out on a file tree in memory.  The system
also keeps the locks that are held, the input that questions read, and what
the user was shown and told.

A lock belongs to a file and not to its name: if the file is removed or
replaced, its lock no longer keeps anyone from locking the file that takes
its place.
-/

namespace TestSkeleton.Files

/-- A lock that is held. -/
structure Hold where
  ticket : Nat
  /-- The place of the lock file, or nothing if that file is gone. -/
  place? : Option Place
  mode : LockMode
deriving DecidableEq, Inhabited, Repr

/-- Whether a lock at a place keeps another one out. -/
def Hold.conflicts (hold : Hold) (place : Place) (mode : LockMode) : Bool :=
  hold.place? == some place && (hold.mode == .exclusive || mode == .exclusive)

/-- The state of the system. -/
structure Memory where
  tree : Tree := {}
  /-- The current directory. -/
  current : Place := []
  holds : List Hold := []
  /-- A number above the tickets of all locks. -/
  nextTicket : Nat := 0
  processId : Nat := 1
  /-- What is left of the input. -/
  input : List UInt8 := []
  /-- What questions have shown. -/
  shown : String := ""
  /-- What the user was told, in order. -/
  warnings : List Warning := []
deriving Inhabited

namespace Memory

/-- The path of a place. -/
def pathOf (place : Place) : String :=
  if place.isEmpty then "/" else String.join (place.map fun name => "/" ++ name)

/-- Locks on the file at a place become locks on a file that is gone. -/
def forget (memory : Memory) (place : Place) : Memory :=
  { memory with
    holds := memory.holds.map fun hold =>
      if hold.place? = some place then { hold with place? := none } else hold }

/-- Locks on the file at one place become locks on the file at another. -/
def follow (memory : Memory) (source target : Place) : Memory :=
  { memory with
    holds := memory.holds.map fun hold =>
      if hold.place? = some source then { hold with place? := some target } else hold }

/-- Opens a lock file and locks it.  Nobody else runs meanwhile, so a lock
that is not free at once is not free in time. -/
def lock (memory : Memory) (path : String) (mode : LockMode) :
    Except LockFault Nat × Memory :=
  match memory.tree.openPlace memory.current path with
  | .error fault => (.error (.system fault), memory)
  | .ok place =>
    let memory :=
      if (memory.tree.node? place).isSome then memory
      else { memory with tree := memory.tree.put place (.file .empty) }
    if memory.holds.any (fun hold => hold.conflicts place mode) then (.error .timedOut, memory)
    else
      (.ok memory.nextTicket,
        { memory with
          holds := ⟨memory.nextTicket, some place, mode⟩ :: memory.holds
          nextTicket := memory.nextTicket + 1 })

/-- Gives up a lock. -/
def release (memory : Memory) (ticket : Nat) : Memory :=
  { memory with holds := memory.holds.filter (fun hold => hold.ticket != ticket) }

/-- Removes a file. -/
def remove (memory : Memory) (path : String) : Except Fault Unit × Memory :=
  match memory.tree.filePlace memory.current path with
  | .error fault => (.error fault, memory)
  | .ok place => (.ok (), { memory with tree := memory.tree.erase place }.forget place)

/-- Renames a file.  A file that has the new name is gone. -/
def rename (memory : Memory) (source target : String) : Except Fault Unit × Memory :=
  match memory.tree.filePlace memory.current source,
    memory.tree.renamePlace memory.current target with
  | .error fault, _ => (.error fault, memory)
  | _, .error fault => (.error fault, memory)
  | .ok source, .ok target =>
    if source = target then (.ok (), memory)
    else
      (.ok (), ({ memory with tree := memory.tree.move source target }.forget target).follow
        source target)

/-- The path from the root of what a path names. -/
def realPath (memory : Memory) (path : String) : Except Fault String :=
  (memory.tree.locate memory.current path).map pathOf

/-- The bytes up to and including the first line end, and the rest. -/
def firstLine (bytes : List UInt8) : List UInt8 × List UInt8 :=
  let line := bytes.takeWhile (fun b => b != 10)
  (line ++ (bytes.drop line.length).take 1, bytes.drop (line.length + 1))

/-- Shows a question and reads one line of input. -/
def ask (memory : Memory) (question : String) : Except Fault String × Memory :=
  let (line, rest) := firstLine memory.input
  let memory := { memory with shown := memory.shown ++ question, input := rest }
  match String.fromUTF8? ⟨line.toArray⟩ with
  | some text => (.ok text, memory)
  | none => (.error .notText, memory)

/-- Carries out a request. -/
def serve (request : Request) (memory : Memory) : Reply request × Memory :=
  match request with
  | .createDirs path =>
    let (reply, tree) := memory.tree.createDirs memory.current path
    (reply, { memory with tree })
  | .lock path mode _ => memory.lock path mode
  | .release ticket => ((), memory.release ticket)
  | .exists path => (memory.tree.contains memory.current path, memory)
  | .read path => (memory.tree.read memory.current path, memory)
  | .write path content =>
    match memory.tree.write memory.current path content with
    | .ok tree => (.ok (), { memory with tree })
    | .error fault => (.error fault, memory)
  | .rename source target => memory.rename source target
  | .remove path => memory.remove path
  | .realPath path => (memory.realPath path, memory)
  | .currentDir => (.ok (pathOf memory.current), memory)
  | .processId => (memory.processId, memory)
  | .ask question => memory.ask question
  | .warn warning => ((), { memory with warnings := memory.warnings ++ [warning] })

/-- Runs an action in memory. -/
def run {α : Type} (action : Action α) (memory : Memory) : α × Memory :=
  action.run serve memory

end Memory

end TestSkeleton.Files
