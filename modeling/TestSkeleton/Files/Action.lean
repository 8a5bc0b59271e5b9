import TestSkeleton.Files.Fault

/-!
# Actions on files

Everything that a command does outside its own memory is a request: to a
file, to a lock, to the user.  An `Action` is a program that makes requests
one at a time and goes on with their replies.  What a request does is not
said here, so that the same action can run on a tree in memory, on a system
that fails at any step, or on real files.

* `Request` and `Reply` are the requests and what they answer.
* `Action.run` runs an action on a state, and `Action.perform` runs it in a
  monad.
-/

namespace TestSkeleton.Files

/-- How a lock is shared: many readers or one writer. -/
inductive LockMode where
  | shared
  | exclusive
deriving DecidableEq, Inhabited, Repr

/-- Why a lock is not held. -/
inductive LockFault where
  /-- Another holder kept the lock for the whole waiting time. -/
  | timedOut
  | system (fault : Fault)
deriving DecidableEq, Inhabited, Repr

/-- The words for a lock that is not held. -/
def LockFault.text : LockFault → String
  | .timedOut => "lock acquisition timed out"
  | .system fault => "lock I/O error: " ++ fault.text

/-- The report of the system behind a lock that is not held. -/
def LockFault.cause? : LockFault → Option Fault
  | .timedOut => none
  | .system fault => some fault

/-- What a command goes on after, but tells the user about. -/
inductive Warning where
  | caseExists
  | corruptPreferences
  | unreadablePreferences
  | unreadableAnswer
deriving DecidableEq, Inhabited, Repr

/-- The words of a warning. -/
def Warning.text : Warning → String
  | .caseExists => "test case already exists, adding another"
  | .corruptPreferences => "corrupted preferences file, ignoring it"
  | .unreadablePreferences => "cannot read preferences, ignoring them"
  | .unreadableAnswer => "failed to read folder answer, using source directory"

/-- One step outside the memory of the command. -/
inductive Request where
  /-- Creates a directory and the directories on the way to it. -/
  | createDirs (path : String)
  /-- Opens a lock file, creating it if needed, and locks it.  The lock is
  held under the ticket in the reply until it is released. -/
  | lock (path : String) (mode : LockMode) (timeoutMs : Nat)
  /-- Gives up a lock. -/
  | release (ticket : Nat)
  /-- Whether a path names something. -/
  | exists (path : String)
  /-- The content of a file. -/
  | read (path : String)
  /-- Creates or replaces a file. -/
  | write (path : String) (content : ByteArray)
  /-- Gives a file another name, which it takes from any file that has it. -/
  | rename (source target : String)
  /-- Removes a file. -/
  | remove (path : String)
  /-- The path from the root of something that exists, without detours. -/
  | realPath (path : String)
  /-- The path of the current directory. -/
  | currentDir
  /-- A number that no other running process has. -/
  | processId
  /-- Shows a question and reads one line. -/
  | ask (question : String)
  /-- Tells the user about something. -/
  | warn (warning : Warning)
deriving Inhabited

/-- What a request answers. -/
def Reply : Request → Type
  | .createDirs _ => Except Fault Unit
  | .lock _ _ _ => Except LockFault Nat
  | .release _ => Unit
  | .exists _ => Bool
  | .read _ => Except Fault ByteArray
  | .write _ _ => Except Fault Unit
  | .rename _ _ => Except Fault Unit
  | .remove _ => Except Fault Unit
  | .realPath _ => Except Fault String
  | .currentDir => Except Fault String
  | .processId => Nat
  | .ask _ => Except Fault String
  | .warn _ => Unit

/-- A program that makes requests one at a time. -/
inductive Action (α : Type) where
  | done (result : α)
  | step (request : Request) (next : Reply request → Action α)

namespace Action

variable {α β γ : Type}

/-- Goes on with the result of an action. -/
def andThen (action : Action α) (next : α → Action β) : Action β :=
  match action with
  | .done result => next result
  | .step request k => .step request (fun reply => (k reply).andThen next)

instance : Monad Action where
  pure := .done
  bind := andThen

instance [Inhabited α] : Inhabited (Action α) := ⟨.done default⟩

@[simp] theorem pure_eq (a : α) : (pure a : Action α) = .done a := rfl

@[simp] theorem bind_eq (action : Action α) (next : α → Action β) :
    action >>= next = action.andThen next := rfl

@[simp] theorem done_andThen (a : α) (next : α → Action β) :
    (Action.done a).andThen next = next a := rfl

@[simp] theorem step_andThen (request : Request) (k : Reply request → Action α)
    (next : α → Action β) :
    (Action.step request k).andThen next =
      .step request (fun reply => (k reply).andThen next) := rfl

theorem andThen_assoc (action : Action α) (f : α → Action β) (g : β → Action γ) :
    (action.andThen f).andThen g = action.andThen (fun a => (f a).andThen g) := by
  induction action with
  | done a => rfl
  | step request k ih =>
    rw [step_andThen, step_andThen, step_andThen]
    exact congrArg (Action.step request) (funext ih)

/-- The action that makes one request. -/
def ofRequest (request : Request) : Action (Reply request) :=
  .step request .done

/-- Runs an action on a state.  `serve` says what a request does. -/
def run {σ : Type} (serve : (request : Request) → σ → Reply request × σ) :
    Action α → σ → α × σ
  | .done result, state => (result, state)
  | .step request next, state =>
    let (reply, state) := serve request state
    run serve (next reply) state

@[simp] theorem run_done {σ : Type} (serve : (request : Request) → σ → Reply request × σ)
    (a : α) (state : σ) : run serve (.done a) state = (a, state) := rfl

@[simp] theorem run_step {σ : Type} (serve : (request : Request) → σ → Reply request × σ)
    (request : Request) (next : Reply request → Action α) (state : σ) :
    run serve (.step request next) state =
      run serve (next (serve request state).1) (serve request state).2 := rfl

/-- Running two actions in turn is running them joined. -/
theorem run_andThen {σ : Type} (serve : (request : Request) → σ → Reply request × σ)
    (action : Action α) (next : α → Action β) (state : σ) :
    run serve (action.andThen next) state =
      run serve (next (run serve action state).1) (run serve action state).2 := by
  induction action generalizing state with
  | done a => rfl
  | step request k ih => rw [step_andThen, run_step, run_step, ih]

/-- Runs an action in a monad. -/
def perform {m : Type → Type} [Monad m] (serve : (request : Request) → m (Reply request)) :
    Action α → m α
  | .done result => pure result
  | .step request next => do
    let reply ← serve request
    perform serve (next reply)

/-! ## The requests as actions -/

def createDirs (path : String) : Action (Except Fault Unit) :=
  ofRequest (.createDirs path)

def lock (path : String) (mode : LockMode) (timeoutMs : Nat) :
    Action (Except LockFault Nat) :=
  ofRequest (.lock path mode timeoutMs)

def release (ticket : Nat) : Action Unit :=
  ofRequest (.release ticket)

def pathExists (path : String) : Action Bool :=
  ofRequest (.exists path)

def read (path : String) : Action (Except Fault ByteArray) :=
  ofRequest (.read path)

def write (path : String) (content : ByteArray) : Action (Except Fault Unit) :=
  ofRequest (.write path content)

def rename (source target : String) : Action (Except Fault Unit) :=
  ofRequest (.rename source target)

def remove (path : String) : Action (Except Fault Unit) :=
  ofRequest (.remove path)

def realPath (path : String) : Action (Except Fault String) :=
  ofRequest (.realPath path)

def currentDir : Action (Except Fault String) :=
  ofRequest .currentDir

def processId : Action Nat :=
  ofRequest .processId

def ask (question : String) : Action (Except Fault String) :=
  ofRequest (.ask question)

def warn (warning : Warning) : Action Unit :=
  ofRequest (.warn warning)

/-- The content of a file as text. -/
def readText (path : String) : Action (Except Fault String) := do
  match (← read path) with
  | .error fault => return .error fault
  | .ok content =>
    match String.fromUTF8? content with
    | some text => return .ok text
    | none => return .error .notText

end Action

end TestSkeleton.Files
