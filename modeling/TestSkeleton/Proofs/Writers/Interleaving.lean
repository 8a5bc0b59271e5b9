import TestSkeleton.Proofs.Writers.Sharing

/-!
# Interleaved writers

Any number of calls write a case to one test file.  Their requests reach one
system in any order, a lock may not be granted in time, and any request that
changes something may fail, but no look.  A lock is exclusive and a rename is
done at once, as the system does them.

* `World` is the system with its calls, and `Step` what one call may do next.
* `World.granted` lists the calls in the order in which they were granted the
  lock, and `World.log` those that replaced the file, which is the moment a
  call counts from.
* `World.play` makes some steps on a system where nothing fails by accident,
  and `World.reaches_play` says that they are steps.
-/

namespace TestSkeleton.Writers

open Files
open Generation (WriteOutcome)
open Memory (Serves)
open Preferences (replaces)

/-- What became of a call. -/
inductive Caller where
  | idle
  | running (action : Action (Except Failure WriteOutcome))
  | ended (result : Except Failure WriteOutcome)

/-- A system with the calls on one test file. -/
structure World where
  memory : Memory
  callers : Nat → Caller := fun _ => .idle
  /-- The calls that were granted the lock, in order. -/
  granted : List Nat := []
  /-- The calls that replaced the file, in order. -/
  log : List Nat := []

/-- What a call may do next. -/
inductive Step (lockDir path : String) (calls : Nat → Call) (i : Nat) (world : World) :
    World → Prop where
  | start (h : world.callers i = .idle) :
      Step lockDir path calls i world { world with
        callers := Function.update world.callers i (.running ((calls i).action lockDir path)) }
  | serve {request : Request} {next : Reply request → Action _} {reply : Reply request}
      {after : Memory} (h : world.callers i = .running (.step request next))
      (hserves : Serves world.memory request reply after) :
      Step lockDir path calls i world {
        memory := after
        callers := Function.update world.callers i (.running (next reply))
        granted := if grants request reply then world.granted ++ [i] else world.granted
        log := if replaces path request reply then world.log ++ [i] else world.log }
  | finish {result : Except Failure WriteOutcome}
      (h : world.callers i = .running (.done result)) :
      Step lockDir path calls i world { world with
        callers := Function.update world.callers i (.ended result) }

/-- The worlds that some steps lead to. -/
inductive Reaches (lockDir path : String) (calls : Nat → Call) (start : World) : World → Prop where
  | refl : Reaches lockDir path calls start start
  | step {world world' : World} (i : Nat) (h : Reaches lockDir path calls start world)
      (hstep : Step lockDir path calls i world world') : Reaches lockDir path calls start world'

section

variable {lockDir path : String} {calls : Nat → Call} {i : Nat} {start world world' : World}

/-- The lists of the calls only grow. -/
theorem Step.grows (h : Step lockDir path calls i world world') :
    world.granted <+: world'.granted ∧ world.log <+: world'.log := by
  cases h with
  | start h => exact ⟨List.prefix_rfl, List.prefix_rfl⟩
  | finish h => exact ⟨List.prefix_rfl, List.prefix_rfl⟩
  | serve h hserves =>
    constructor
    · show world.granted <+: ite _ _ _
      split
      · exact List.prefix_append _ _
      · exact List.prefix_rfl
    · show world.log <+: ite _ _ _
      split
      · exact List.prefix_append _ _
      · exact List.prefix_rfl

theorem Reaches.grows (h : Reaches lockDir path calls world world') :
    world.granted <+: world'.granted ∧ world.log <+: world'.log := by
  induction h with
  | refl => exact ⟨List.prefix_rfl, List.prefix_rfl⟩
  | step i _ hstep ih => exact ⟨ih.1.trans hstep.grows.1, ih.2.trans hstep.grows.2⟩

end

/-! ## Runs -/

namespace World

variable {lockDir path : String} {calls : Nat → Call}

/-- The next step of a call, on a system where nothing fails by accident. -/
def turn (lockDir path : String) (calls : Nat → Call) (world : World) (i : Nat) : World :=
  match world.callers i with
  | .idle => { world with
      callers := Function.update world.callers i (.running ((calls i).action lockDir path)) }
  | .running (.step request next) =>
    let (reply, after) := Memory.serve request world.memory
    { memory := after
      callers := Function.update world.callers i (.running (next reply))
      granted := if grants request reply then world.granted ++ [i] else world.granted
      log := if replaces path request reply then world.log ++ [i] else world.log }
  | .running (.done result) => { world with
      callers := Function.update world.callers i (.ended result) }
  | .ended _ => world

/-- The world after some steps of the calls that are listed. -/
def play (lockDir path : String) (calls : Nat → Call) (world : World) (turns : List Nat) :
    World :=
  turns.foldl (turn lockDir path calls) world

theorem turn_step (world : World) (i : Nat) :
    world.turn lockDir path calls i = world ∨
      Step lockDir path calls i world (world.turn lockDir path calls i) := by
  rw [turn]
  split
  · rename_i h
    exact Or.inr (.start h)
  · rename_i request next h
    exact Or.inr (.serve h (Or.inl rfl))
  · rename_i result h
    exact Or.inr (.finish h)
  · exact Or.inl rfl

/-- What is played are steps. -/
theorem reaches_play {start world : World} (h : Reaches lockDir path calls start world)
    (turns : List Nat) :
    Reaches lockDir path calls start (world.play lockDir path calls turns) := by
  induction turns generalizing world with
  | nil => exact h
  | cons i turns ih =>
    have hplay : world.play lockDir path calls (i :: turns) =
        (world.turn lockDir path calls i).play lockDir path calls turns := rfl
    rw [hplay]
    rcases turn_step world i with hsame | hstep
    · rw [hsame]
      exact ih h
    · exact ih (h.step i hstep)

end World

end TestSkeleton.Writers
