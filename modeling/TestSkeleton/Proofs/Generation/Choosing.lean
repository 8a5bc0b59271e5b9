import TestSkeleton.Generation.Run
import TestSkeleton.Proofs.Files.Attempting
import TestSkeleton.Proofs.Path.Rooted

/-!
# Where a test file goes

The path of a test file comes from the path of the source file, the current
directory, an answer or the preferences.  What each of them can make of it is
said here once.

* `Locates` is what a behaviour has to say truly for this: where a path leads,
  and which directory is the current one.
* `runs_absoluteSource` is the path from the root of a source file, and
  `runs_absoluteOrSame` that of an answer.
* `runs_resolve` is when a directory is to be remembered: the first time.
* `Choice` has a case for each way to find the directory, and
  `choice_of_runs` says that there is no other.
-/

namespace TestSkeleton

namespace Files

open Memory (Attempts)

/-- Whether a behaviour answers truly where a path leads and which directory
is the current one, if it answers at all.  The tree in which a path was
followed need not be the one before the request, so that others may change it
at any time. -/
structure Locates (serves : Behaviour) : Prop where
  current : ∀ {memory request reply after}, serves memory request reply after →
    after.current = memory.current
  currentDir : ∀ {memory found after}, serves memory .currentDir (Except.ok found) after →
    found = Memory.pathOf memory.current
  realPath : ∀ {memory path found after}, serves memory (.realPath path) (Except.ok found) after →
    ∃ (tree : Tree) (place : Place), tree.locate memory.current path = .ok place ∧
      found = Memory.pathOf place

theorem locates_of_refines {serves : Behaviour} (h : Refines serves Attempts) : Locates serves where
  current hserves := (h _ _ _ _ hserves).became.changes.current
  currentDir hserves := by
    rcases h _ _ _ _ hserves with hserve | ⟨fault, hfault, -⟩ | ⟨-, hdeparts⟩
    · exact Except.ok.inj (congrArg Prod.fst hserve)
    · cases hfault
    · exact hdeparts.elim
  realPath {memory path found after} hserves := by
    rcases h _ _ _ _ hserves with hserve | ⟨fault, hfault, -⟩ | ⟨-, hdeparts⟩
    · have hreal : Except.ok found = memory.realPath path := congrArg Prod.fst hserve
      rw [Memory.realPath] at hreal
      cases hlocate : memory.tree.locate memory.current path with
      | error fault =>
        rw [hlocate] at hreal
        cases hreal
      | ok place =>
        rw [hlocate] at hreal
        exact ⟨memory.tree, place, hlocate, Except.ok.inj hreal⟩
    · cases hfault
    · exact hdeparts.elim

/-- No action changes the current directory. -/
theorem Locates.runs_current {serves : Behaviour} (hserves : Locates serves) {α : Type}
    {action : Action α} {memory after : Memory} {result : α}
    (h : Action.Runs serves memory action result after) : after.current = memory.current := by
  induction h with
  | done result memory => rfl
  | step hserved _ ih => exact ih.trans (hserves.current hserved)

end Files

namespace Generation

open Files
open Files.Action (Runs runs_done runs_step runs_andThen)
open Memory (pathOf)
open Preferences.Outputs (Stored lookup?)

variable {serves : Behaviour} {store : TestStore} {prompt : Source.FolderPrompt}
  {memory after : Memory} {source absolute : String}

/-! ## Paths from the root -/

/-- The path of a source file is the path of what is found there, or is made
from the path that was given. -/
theorem runs_absoluteSource (hserves : Locates serves)
    (h : Runs serves memory (absoluteSource source) (.ok absolute) after) :
    (∃ (tree : Tree) (place : Place), tree.locate memory.current source = .ok place ∧
      absolute = pathOf place) ∨
    absolute = Path.absolute (pathOf memory.current) source := by
  obtain ⟨reply, looked, hlook, hrest⟩ := runs_andThen.1 h
  obtain ⟨answer, system, hanswer, hdone⟩ := runs_step.1 hlook
  obtain ⟨rfl, rfl⟩ := runs_done.1 hdone
  cases reply with
  | ok path =>
    obtain ⟨hresult, -⟩ := runs_done.1 hrest
    cases hresult
    exact Or.inl (hserves.realPath hanswer)
  | error fault =>
    refine Or.inr ?_
    simp only at hrest
    split at hrest
    · cases (runs_done.1 hrest).1
    split at hrest
    · rename_i habs
      obtain ⟨hresult, -⟩ := runs_done.1 hrest
      cases hresult
      exact Path.absolute_of_isAbsolute habs _ _
    · obtain ⟨reply, asked, hask, hend⟩ := runs_andThen.1 hrest
      obtain ⟨answer, system, hanswered, hdone⟩ := runs_step.1 hask
      obtain ⟨rfl, rfl⟩ := runs_done.1 hdone
      cases reply with
      | error fault => cases (runs_done.1 hend).1
      | ok current =>
        obtain ⟨hresult, -⟩ := runs_done.1 hend
        cases hresult
        rw [hserves.currentDir hanswered, hserves.current hanswer]

/-- An answer is made a path from the root, unless it is empty or the current
directory is not known. -/
theorem runs_absoluteOrSame (hserves : Locates serves) {directory result : String}
    (h : Runs serves memory (TestStore.absoluteOrSame directory) result after) :
    (Path.isAbsolute directory = false ∧ result = directory) ∨
      result = Path.absolute (pathOf memory.current) directory := by
  rw [TestStore.absoluteOrSame] at h
  split at h
  · rename_i hempty
    obtain ⟨rfl, -⟩ := runs_done.1 h
    exact Or.inl ⟨by rw [String.isEmpty_iff.1 hempty]; rfl, rfl⟩
  split at h
  · rename_i habs
    obtain ⟨rfl, -⟩ := runs_done.1 h
    exact Or.inr (Path.absolute_of_isAbsolute habs _ _)
  rename_i habs
  obtain ⟨reply, looked, hlook, hrest⟩ := runs_andThen.1 h
  obtain ⟨answer, system, hanswer, hdone⟩ := runs_step.1 hlook
  obtain ⟨rfl, rfl⟩ := runs_done.1 hdone
  cases reply with
  | error fault =>
    obtain ⟨rfl, -⟩ := runs_done.1 hrest
    exact Or.inl ⟨by simpa using habs, rfl⟩
  | ok current =>
    obtain ⟨rfl, -⟩ := runs_done.1 hrest
    exact Or.inr (by rw [hserves.currentDir hanswer])

/-! ## The directory -/

/-- A directory is to be remembered if nothing is remembered yet. -/
theorem runs_resolve {absolute : String} {resolved : ResolvedOutput}
    (h : Runs serves memory (store.resolve absolute prompt) resolved after) :
    ((lookup? store.preferences.document absolute).isSome ∧ resolved.firstTime = false ∧
      resolved.pending = none) ∨
    (lookup? store.preferences.document absolute = none ∧ resolved.firstTime = true ∧
      resolved.pending = some ⟨absolute, resolved.directory⟩) := by
  rw [TestStore.resolve] at h
  cases hlookup : lookup? store.preferences.document absolute with
  | some stored =>
    rw [hlookup] at h
    obtain ⟨rfl, -⟩ := runs_done.1 h
    exact Or.inl ⟨rfl, rfl, rfl⟩
  | none =>
    rw [hlookup] at h
    obtain ⟨answer, chosen, -, hrest⟩ := runs_andThen.1 h
    cases answer with
    | none =>
      obtain ⟨rfl, -⟩ := runs_done.1 hrest
      exact Or.inr ⟨rfl, rfl, rfl⟩
    | some directory =>
      obtain ⟨absolute, asked, -, hend⟩ := runs_andThen.1 hrest
      obtain ⟨rfl, -⟩ := runs_done.1 hend
      exact Or.inr ⟨rfl, rfl, rfl⟩

/-- How a directory is found for a path from the root. -/
inductive Choice (serves : Behaviour) (store : TestStore) (prompt : Source.FolderPrompt)
    (memory : Memory) (absolute : String) : String → Prop where
  /-- The test file goes beside the source file. -/
  | beside : Choice serves store prompt memory absolute (Path.containingDir absolute)
  | remembered {stored : Stored} {directory : String}
      (hlookup : lookup? store.preferences.document absolute = some stored)
      (hdirectory : stored.directory = some directory) :
      Choice serves store prompt memory absolute directory
  /-- An answer that stays relative. -/
  | same {answer : String} {asked : Memory}
      (hchoose : Runs serves memory (prompt.choose absolute) (some answer) asked)
      (hrelative : Path.isAbsolute answer = false) :
      Choice serves store prompt memory absolute answer
  | answered {answer : String} {asked : Memory}
      (hchoose : Runs serves memory (prompt.choose absolute) (some answer) asked) :
      Choice serves store prompt memory absolute (Path.absolute (pathOf memory.current) answer)

/-- What is looked up stands in the preferences. -/
theorem getString?_of_lookup? {document : Preferences.Document} {stored : Stored}
    {directory : String} (hlookup : lookup? document absolute = some stored)
    (hdirectory : stored.directory = some directory) :
    document.getString? Preferences.Outputs.rootCollection absolute = some directory := by
  rw [lookup?] at hlookup
  split at hlookup
  · cases hlookup
    exact (Option.filter_eq_some_iff.1 hdirectory).1
  · cases hlookup

theorem choice_of_runs (hserves : Locates serves) {resolved : ResolvedOutput}
    (h : Runs serves memory (store.resolve absolute prompt) resolved after) :
    Choice serves store prompt memory absolute resolved.directory := by
  rw [TestStore.resolve] at h
  cases hlookup : lookup? store.preferences.document absolute with
  | some stored =>
    rw [hlookup] at h
    obtain ⟨rfl, -⟩ := runs_done.1 h
    simp only
    split
    · cases hdirectory : stored.directory with
      | none => exact .beside
      | some directory => exact .remembered hlookup hdirectory
    · exact .beside
  | none =>
    rw [hlookup] at h
    obtain ⟨answer, chosen, hchoose, hrest⟩ := runs_andThen.1 h
    cases answer with
    | none =>
      obtain ⟨rfl, -⟩ := runs_done.1 hrest
      exact .beside
    | some answer =>
      obtain ⟨directory, asked, hasked, hend⟩ := runs_andThen.1 hrest
      obtain ⟨rfl, -⟩ := runs_done.1 hend
      rcases runs_absoluteOrSame hserves hasked with ⟨hrelative, rfl⟩ | rfl
      · exact .same hchoose hrelative
      · rw [hserves.runs_current hchoose]
        exact .answered hchoose

end Generation

end TestSkeleton
