import TestSkeleton.Proofs.Files.Failing
import TestSkeleton.Proofs.Preferences.Replay
import TestSkeleton.Proofs.Preferences.Turns
import Mathlib.Logic.Function.Basic

/-!
# Interleaved preference stores

Any number of stores are opened, changed and saved on one preference file.
Their requests reach one system in any order, and any request that changes
something may fail there, but no look.

* `World` is the system with its instances, and `Step` what may happen next.
* `World.log` lists the saves that replaced the file, which is the moment a
  save counts from.  Locks are granted under rising tickets.
* `World.play` makes some moves on a system where nothing fails by accident,
  and `World.reaches_play` says that moves are steps.
-/

namespace TestSkeleton.Preferences

open Files
open Memory (Serves)

/-! ## Saves -/

/-- One save of an instance. -/
structure Save where
  /-- The changes that were recorded since the last successful save. -/
  changes : List Change
  /-- The ticket of the lock that it was granted. -/
  ticket? : Option Nat := none
deriving DecidableEq

namespace Save

/-- Notes the ticket of the lock. -/
def noted (save : Save) : (request : Request) → Reply request → Save
  | .lock _ _ _, reply =>
    match (reply : Except LockFault Nat) with
    | .ok ticket => { save with ticket? := some ticket }
    | .error _ => save
  | _, _ => save

/-- Whether a save was granted the lock before another. -/
def Precedes (save other : Save) : Prop :=
  ∃ ticket ticket', save.ticket? = some ticket ∧ other.ticket? = some ticket' ∧ ticket < ticket'

/-- The string that a save gives to a name. -/
def string? (save : Save) (collection key : String) : Option String :=
  save.changes.reverse.findSome? (Change.string? collection key)

/-- The truth value that a save gives to a name. -/
def bool? (save : Save) (collection key : String) : Option Bool :=
  save.changes.reverse.findSome? (Change.bool? collection key)

end Save

/-! ## Steps -/

/-- What one store is doing. -/
inductive Instance where
  | closed
  | opening (action : Action (Except Failure FileStore))
  /-- A store with the changes recorded since its last successful save. -/
  | ready (unsaved : List Change) (store : FileStore)
  | saving (save : Save) (store : FileStore) (action : Action (Except Failure Unit × FileStore))

/-- The changes that an instance is about to save. -/
def Instance.changes : Instance → List Change
  | .saving save _ _ => save.changes
  | _ => []

/-- A system with the stores on one preference file. -/
structure World where
  memory : Memory
  instances : Nat → Instance := fun _ => .closed
  /-- The saves that replaced the file, in order. -/
  log : List Save := []
  /-- The saves that ended, with their results. -/
  returned : List (Save × Except Failure Unit) := []

/-- What may happen next with the stores on the file at a path. -/
inductive Step (path : String) (world : World) : World → Prop where
  | load (i timeoutMs : Nat) (h : world.instances i = .closed) :
      Step path world { world with
        instances := Function.update world.instances i (.opening (FileStore.load path timeoutMs)) }
  | serveLoad (i : Nat) {request : Request} {next : Reply request → Action _}
      {reply : Reply request} {after : Memory}
      (h : world.instances i = .opening (.step request next))
      (hserves : Serves world.memory request reply after) :
      Step path world { world with
        memory := after
        instances := Function.update world.instances i (.opening (next reply)) }
  | loaded (i : Nat) {store : FileStore} (h : world.instances i = .opening (.done (.ok store))) :
      Step path world { world with
        instances := Function.update world.instances i (.ready [] store) }
  | refused (i : Nat) {failure : Failure}
      (h : world.instances i = .opening (.done (.error failure))) :
      Step path world { world with
        instances := Function.update world.instances i .closed }
  | record (i : Nat) (change : Change) {unsaved : List Change} {store : FileStore}
      (h : world.instances i = .ready unsaved store) :
      Step path world { world with
        instances := Function.update world.instances i
          (.ready (unsaved ++ [change]) (store.record change)) }
  | save (i : Nat) {unsaved : List Change} {store : FileStore}
      (h : world.instances i = .ready unsaved store) :
      Step path world { world with
        instances := Function.update world.instances i
          (.saving { changes := unsaved } store store.save) }
  | serveSave (i : Nat) {save : Save} {store : FileStore} {request : Request}
      {next : Reply request → Action _} {reply : Reply request} {after : Memory}
      (h : world.instances i = .saving save store (.step request next))
      (hserves : Serves world.memory request reply after) :
      Step path world { world with
        memory := after
        instances := Function.update world.instances i
          (.saving (save.noted request reply) store (next reply))
        log := if replaces path request reply then world.log ++ [save] else world.log }
  | saved (i : Nat) {save : Save} {store store' : FileStore}
      (h : world.instances i = .saving save store (.done (.ok (), store'))) :
      Step path world { world with
        instances := Function.update world.instances i (.ready [] store')
        returned := world.returned ++ [(save, .ok ())] }
  | failed (i : Nat) {save : Save} {store store' : FileStore} {failure : Failure}
      (h : world.instances i = .saving save store (.done (.error failure, store'))) :
      Step path world { world with
        instances := Function.update world.instances i (.ready save.changes store')
        returned := world.returned ++ [(save, .error failure)] }
  | close (i : Nat) {unsaved : List Change} {store : FileStore}
      (h : world.instances i = .ready unsaved store) :
      Step path world { world with
        instances := Function.update world.instances i .closed }

/-- The worlds that some steps lead to. -/
inductive Reaches (path : String) (start : World) : World → Prop where
  | refl : Reaches path start start
  | step {world world' : World} (h : Reaches path start world) (hstep : Step path world world') :
      Reaches path start world'

/-! ## Moves -/

/-- A move of one instance, on a system where nothing fails by accident. -/
inductive Move where
  | load (i timeoutMs : Nat)
  | record (i : Nat) (change : Change)
  | save (i : Nat)
  /-- The next request, or the end of what the instance is doing. -/
  | turn (i : Nat)

namespace World

variable {path : String}

/-- What an instance does next. -/
def turn (path : String) (world : World) (i : Nat) : World :=
  match world.instances i with
  | .closed => world
  | .ready _ _ => world
  | .opening (.step request next) =>
    let (reply, after) := Memory.serve request world.memory
    { world with
      memory := after
      instances := Function.update world.instances i (.opening (next reply)) }
  | .opening (.done (.ok store)) =>
    { world with instances := Function.update world.instances i (.ready [] store) }
  | .opening (.done (.error _)) =>
    { world with instances := Function.update world.instances i .closed }
  | .saving save store (.step request next) =>
    let (reply, after) := Memory.serve request world.memory
    { world with
      memory := after
      instances := Function.update world.instances i
        (.saving (save.noted request reply) store (next reply))
      log := if replaces path request reply then world.log ++ [save] else world.log }
  | .saving save _ (.done (.ok (), store)) =>
    { world with
      instances := Function.update world.instances i (.ready [] store)
      returned := world.returned ++ [(save, .ok ())] }
  | .saving save _ (.done (.error failure, store)) =>
    { world with
      instances := Function.update world.instances i (.ready save.changes store)
      returned := world.returned ++ [(save, .error failure)] }

/-- The world after a move.  A move that is not possible does nothing. -/
def move (path : String) (world : World) : Move → World
  | .load i timeoutMs =>
    match world.instances i with
    | .closed => { world with
        instances := Function.update world.instances i (.opening (FileStore.load path timeoutMs)) }
    | _ => world
  | .record i change =>
    match world.instances i with
    | .ready unsaved store => { world with
        instances := Function.update world.instances i
          (.ready (unsaved ++ [change]) (store.record change)) }
    | _ => world
  | .save i =>
    match world.instances i with
    | .ready unsaved store => { world with
        instances := Function.update world.instances i
          (.saving { changes := unsaved } store store.save) }
    | _ => world
  | .turn i => world.turn path i

/-- The world after some moves. -/
def play (path : String) (world : World) (moves : List Move) : World :=
  moves.foldl (move path) world

theorem turn_step (world : World) (i : Nat) :
    world.turn path i = world ∨ Step path world (world.turn path i) := by
  rw [turn]
  split
  · exact Or.inl rfl
  · exact Or.inl rfl
  · rename_i request next h
    exact Or.inr (.serveLoad i h (Or.inl rfl))
  · rename_i store h
    exact Or.inr (.loaded i h)
  · rename_i failure h
    exact Or.inr (.refused i h)
  · rename_i save store request next h
    exact Or.inr (.serveSave i h (Or.inl rfl))
  · rename_i save store store' h
    exact Or.inr (.saved i h)
  · rename_i save store failure store' h
    exact Or.inr (.failed i h)

theorem move_step (world : World) (move : Move) :
    world.move path move = world ∨ Step path world (world.move path move) := by
  cases move with
  | load i timeoutMs =>
    rw [World.move]
    split
    · rename_i h
      exact Or.inr (.load i timeoutMs h)
    · exact Or.inl rfl
  | record i change =>
    rw [World.move]
    split
    · rename_i unsaved store h
      exact Or.inr (.record i change h)
    · exact Or.inl rfl
  | save i =>
    rw [World.move]
    split
    · rename_i unsaved store h
      exact Or.inr (.save i h)
    · exact Or.inl rfl
  | turn i => exact turn_step world i

/-- Moves are steps. -/
theorem reaches_play {start world : World} (h : Reaches path start world) (moves : List Move) :
    Reaches path start (world.play path moves) := by
  induction moves generalizing world with
  | nil => exact h
  | cons move moves ih =>
    rcases move_step world move with hsame | hstep
    · show Reaches path start ((world.move path move).play path moves)
      rw [hsame]
      exact ih h
    · exact ih (h.step hstep)

end World

end TestSkeleton.Preferences
