import TestSkeleton.Proofs.Generation.Attempting
import TestSkeleton.Proofs.Preferences.Replay

/-!
# Failed generations

A generation that fails has changed nothing, whichever of its steps failed,
with one exception: the case is written before the directory is remembered,
and it is not taken back when the directory cannot be remembered.

* `Spares` says which files are as they were, and `ShowsRecorded` what a
  store shows that could not be saved.
* `runs_generate_error` tells the two kinds of failure apart, under any
  behaviour of the system.  What the test file held before is told from the
  text that it has now where the behaviour is `Discerning`.
* `not_spares_blockedStore` is a failure of the second kind.
-/

namespace TestSkeleton.Generation

open Files
open Files.Action (Runs)
open Memory (Attempts Frames Leads HasFile)

/-- Whether every file is as it was, or is still missing, but those at the end
of some paths. -/
def Spares (paths : List String) (before after : Memory) : Prop :=
  ∀ place, (∀ path ∈ paths, ¬ Leads after path place) → ∀ content,
    after.tree.node? place = some (.file content) ↔ before.tree.node? place = some (.file content)

theorem spares_of_frames {changed opened : List String} {before after : Memory}
    (h : Frames changed opened before after) : Spares (changed ++ opened) before after :=
  fun _ hplace => h.file_iff hplace

/-- Whether a document shows a directory that was recorded for a source file.
For the other source files it shows what it showed before, with the flag
on. -/
def ShowsRecorded (output : PendingOutput) (before after : Preferences.Document) : Prop :=
  ∀ source, Preferences.Outputs.lookup? after source =
    if source = output.source then
      some { directory := (some output.directory).filter fun d => !d.isEmpty, inUse := true }
    else (Preferences.Outputs.lookup? before source).map fun stored => { stored with inUse := true }

theorem showsRecorded_remembered (output : PendingOutput) (document : Preferences.Document) :
    ShowsRecorded output document (remembered document (some output)) :=
  Preferences.Outputs.lookup?_rememberChanges document output.source output.directory

variable {serves : Behaviour} {store store' : TestStore} {settings : Settings}
  {context : Source.Context} {prompt : Source.FolderPrompt} {dryRun : Bool}
  {memory after : Memory} {failure : Failure}

/-- How a generation fails after it has written its case: the preferences are
on a file and could not be saved. -/
structure FailsToRemember (planned : Planned serves store settings context prompt memory)
    (failure : Failure) (store' : TestStore) (after : Memory) where
  file : Preferences.FileStore
  /-- The directory that was to be remembered. -/
  output : PendingOutput
  /-- The system after the case was written. -/
  written : Memory
  outcome : WriteOutcome
  /-- The text that the case was written with. -/
  text : String
  /-- Where the test file is. -/
  place : Place
  isFile : store.preferences = .file file
  isPending : planned.resolved.pending = some output
  writes : Runs serves planned.asked (store.writeCase planned.testFile planned.plan.document
    planned.plan.caseName planned.plan.caseText) (.ok outcome) written
  commits : Runs serves written (store.commit planned.resolved.pending) (.error failure, store')
    after
  leads : Leads after planned.testFile place
  /-- The text is the new document where nothing was, if a look tells, or has
  the case in it. -/
  madeFrom : MadeFrom (Discerning serves) planned.testFile planned.plan.document
    planned.plan.caseText memory place outcome text

/-- A failed generation leaves every file and everything that is remembered,
unless the case is written and the directory could not be remembered.  Then
the test file has its new text, every other file is as it was, and the store
shows a directory that is not saved.  Names of temporary files and of lock
files are not looked at. -/
theorem runs_generate_error (hserves : Refines serves Attempts) (hwell : memory.tree.WellFormed)
    (h : Runs serves memory
      (generate store settings context prompt dryRun) (.error failure, store') after) :
    (store' = store ∧ Spares [] memory after) ∨
    ∃ planned : Planned serves store settings context prompt memory, dryRun = false ∧
      ((store' = store ∧ Spares [temporaryName planned.testFile memory.processId,
          StatePaths.lockFile store.lockDir planned.testFile] memory after) ∨
        ∃ fails : FailsToRemember planned failure store' after,
          (¬ Leads after (temporaryName fails.file.path memory.processId) fails.place →
            after.tree.node? fails.place = some (.file fails.text.toUTF8)) ∧
          Spares [planned.testFile, temporaryName planned.testFile memory.processId,
            temporaryName fails.file.path memory.processId,
            StatePaths.lockFile store.lockDir planned.testFile, fails.file.lockPath]
            memory after ∧
          ShowsRecorded fails.output store.preferences.document store'.preferences.document) := by
  rcases runs_generate hserves h with ⟨hstore, hframes, -⟩ | ⟨planned, hdry, hcarry⟩
  · exact Or.inl ⟨hstore, spares_of_frames hframes⟩
  refine Or.inr ⟨planned, hdry, ?_⟩
  have hasked := planned.frames hserves
  obtain ⟨reply, written, hwrite, hrest⟩ := Action.runs_andThen.1 hcarry
  have hends := runs_writeCase hserves hwrite
  rw [hasked.changes.processId] at hends
  rcases hends with ⟨reason, rfl, hwritten⟩ | ⟨outcome, text, rfl, hdecides, hfile⟩
  · obtain ⟨hresult, rfl⟩ := Action.runs_done.1 hrest
    have hframes := (hasked.mono (by simp) (by simp)).trans hwritten
    exact Or.inl ⟨congrArg Prod.snd hresult, spares_of_frames hframes⟩
  · obtain ⟨⟨committed, last⟩, saved, hcommit, hend⟩ := Action.runs_andThen.1 hrest
    have hwritten := hdecides.frames
    rw [hasked.changes.processId] at hwritten
    have hbefore := (hasked.mono (List.nil_subset _) (List.nil_subset _)).trans hwritten
    have hsaves := runs_commit (hcommit.mono hserves)
    rw [hbefore.changes.processId] at hsaves
    rcases hsaves with ⟨hok, -⟩ |
      ⟨reason, file, output, hfailed, hisFile, hpending, hshown, hsaved⟩
    · -- then the generation would not have failed
      cases hok
      obtain ⟨hresult, -⟩ := Action.runs_done.1 hend
      cases hresult
    · cases hfailed
      obtain ⟨hresult, rfl⟩ := Action.runs_done.1 hend
      cases hresult
      obtain ⟨place, hleads, hnode⟩ := hfile.leads
      have hmade : MadeFrom (Discerning serves) planned.testFile planned.plan.document
          planned.plan.caseText memory place outcome text :=
        (hdecides.madeFrom (hasked.changes.wellFormed hwell) hleads).earlier hasked
      refine Or.inr ⟨⟨file, output, written, outcome, text, place, hisFile, hpending, hwrite,
        hcommit, hleads.keeps hsaved.changes, hmade⟩, ?_, ?_, ?_⟩
      · exact fun hother => hsaved.eq_of_file (by simpa using hother) hnode
      · have hall : Frames [planned.testFile, temporaryName planned.testFile memory.processId,
            temporaryName file.path memory.processId]
            [StatePaths.lockFile store.lockDir planned.testFile, file.lockPath] memory after :=
          (hbefore.mono (by simp) (by simp)).trans (hsaved.mono (by simp) (by simp))
        exact spares_of_frames hall
      · rw [hpending] at hshown
        rw [hshown]
        exact showsRecorded_remembered output _

/-- A system in which a directory has the name of the preference file. -/
def blockedMemory : Memory where
  tree := ⟨[(["src"], .directory), (["state"], .directory),
    (["state", "prefs.json"], .directory)]⟩

/-- Preferences that cannot be saved there. -/
def blockedStore : TestStore where
  preferences := .file { path := "/state/prefs.json", timeoutMs := 0 }
  lockDir := "/state/locks"

/-- The generation of a case with them. -/
def blockedGeneration : Files.Action (Except Failure Generated × TestStore) :=
  generate blockedStore {} ⟨some "/src/Job.cpp", .text "void Run();"⟩ .declined false

/-- Whether a run failed, and a place holds a file after it. -/
def failsWithFile {α β : Type} (place : Place) : (Except Failure α × β) × Memory → Bool
  | ((.error _, _), after) =>
    match after.tree.node? place with
    | some (.file _) => true
    | _ => false
  | _ => false

theorem exists_of_failsWithFile {α β : Type} {place : Place}
    {run : (Except Failure α × β) × Memory} (h : failsWithFile place run = true) :
    ∃ failure store after content, run = ((.error failure, store), after) ∧
      after.tree.node? place = some (.file content) := by
  obtain ⟨⟨result, store⟩, after⟩ := run
  cases result with
  | ok result => cases h
  | error failure =>
    simp only [failsWithFile] at h
    split at h
    · rename_i content hnode
      exact ⟨failure, store, after, content, rfl, hnode⟩
    · cases h

theorem failsWithFile_blockedGeneration :
    failsWithFile ["src", "JobTest.cpp"] (blockedMemory.run blockedGeneration) = true := by
  decide +kernel

/-- The generation fails, and leaves a test file that was not there before. -/
theorem not_spares_blockedStore :
    ∃ failure store' after content,
      blockedMemory.run blockedGeneration = ((.error failure, store'), after) ∧
      blockedMemory.tree.node? ["src", "JobTest.cpp"] = none ∧
      after.tree.node? ["src", "JobTest.cpp"] = some (.file content) := by
  obtain ⟨failure, store', after, content, hrun, hfile⟩ :=
    exists_of_failsWithFile failsWithFile_blockedGeneration
  exact ⟨failure, store', after, content, hrun, rfl, hfile⟩

theorem wellFormed_blockedMemory : blockedMemory.tree.WellFormed :=
  Tree.wellFormed_of_all rfl

/-- The same failure.  No look fails, and so the new document is where nothing
was. -/
theorem runs_generate_error_blockedStore :
    ∃ (failure : Failure) (store' : TestStore) (after : Memory),
      Runs CarriesOut blockedMemory blockedGeneration (.error failure, store') after ∧
      Discerning CarriesOut ∧
      ((store' = blockedStore ∧ Spares [] blockedMemory after) ∨
        ∃ planned : Planned CarriesOut blockedStore {} ⟨some "/src/Job.cpp", .text "void Run();"⟩
            .declined blockedMemory, false = false ∧
          ((store' = blockedStore ∧ Spares [temporaryName planned.testFile 1,
              StatePaths.lockFile "/state/locks" planned.testFile] blockedMemory after) ∨
            ∃ fails : FailsToRemember planned failure store' after,
              (¬ Leads after (temporaryName fails.file.path 1) fails.place →
                after.tree.node? fails.place = some (.file fails.text.toUTF8)) ∧
              Spares [planned.testFile, temporaryName planned.testFile 1,
                temporaryName fails.file.path 1,
                StatePaths.lockFile "/state/locks" planned.testFile, fails.file.lockPath]
                blockedMemory after ∧
              ShowsRecorded fails.output blockedStore.preferences.document
                store'.preferences.document)) := by
  obtain ⟨failure, store', after, -, hrun, -⟩ :=
    exists_of_failsWithFile failsWithFile_blockedGeneration
  have hruns := runs_carriesOut.2 hrun
  exact ⟨failure, store', after, hruns, discerning_of_refines carriesOut_refines_sees,
    runs_generate_error Memory.carriesOut_refines wellFormed_blockedMemory hruns⟩

end TestSkeleton.Generation
