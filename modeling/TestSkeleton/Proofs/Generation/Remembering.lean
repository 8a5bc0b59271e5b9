import TestSkeleton.Proofs.Generation.Sessions

/-!
# Directories that are saved

A generation that succeeds leaves the directory of its source file in the
preference file, unless an earlier generation recorded the directory and
failed to save it: then the store shows the directory, nothing is chosen, and
nothing is saved.

* `Marks` is what every save keeps of a document: where there is a mark, there
  is a directory.
* `Backed` says what a store on a file shows beyond the document in the file:
  what is pending.  `Backed.turn` keeps it for every generation.
* `Continues.remembers` is the result, and `not_savedFor_repeatedRun` the
  exception.
-/

namespace TestSkeleton.Generation

open Files
open Files.Action (Runs)
open Memory (Attempts)
open Preferences (Decodes Document FileStore MayShow Reads Store savedDocument)
open Preferences.Outputs (contains_rememberChanges getString?_rememberChanges lookup? markerFor
  rootCollection)

variable {store store' : TestStore} {settings : Settings} {context : Source.Context}
  {prompt : Source.FolderPrompt} {memory before after : Memory} {path source : String}
  {document saved : Document}

/-! ## Marks and directories -/

/-- Whether a source file is marked and has a directory. -/
def Saved (source : String) (document : Document) : Prop :=
  document.contains (markerFor source) = true ∧
    (document.getString? rootCollection source).isSome

/-- Whether every source file that is marked has a directory. -/
def Marks (document : Document) : Prop :=
  ∀ source, document.contains (markerFor source) = true → Saved source document

theorem marks_empty : Marks {} :=
  fun _ hmark => nomatch hmark

/-- A directory that is recorded comes with its mark. -/
theorem saved_changes (document : Document) (output : PendingOutput) :
    Saved output.source (document.applyAll output.changes) := by
  rw [Saved, PendingOutput.changes, contains_rememberChanges, getString?_rememberChanges]
  simp

theorem Saved.changes (h : Saved source document) (output : PendingOutput) :
    Saved source (document.applyAll output.changes) := by
  rw [Saved, PendingOutput.changes, contains_rememberChanges, getString?_rememberChanges, h.1]
  refine ⟨Bool.or_true _, ?_⟩
  split
  · rfl
  · exact h.2

theorem Marks.changes (h : Marks document) (output : PendingOutput) :
    Marks (document.applyAll output.changes) := by
  intro source hmark
  rw [PendingOutput.changes, contains_rememberChanges] at hmark
  by_cases hsource : source = output.source
  · rw [hsource]
    exact saved_changes document output
  · rw [decide_eq_false hsource, Bool.false_or] at hmark
    exact (h source hmark).changes output

theorem Marks.flatMap_changes (h : Marks document) (outputs : List PendingOutput) :
    Marks (document.applyAll (outputs.flatMap PendingOutput.changes)) := by
  induction outputs generalizing document with
  | nil => exact h
  | cons output outputs ih =>
    rw [List.flatMap_cons, Document.applyAll_append]
    exact ih (h.changes output)

/-- A mark was there before, or is recorded. -/
theorem contains_flatMap_changes {outputs : List PendingOutput}
    (h : (document.applyAll (outputs.flatMap PendingOutput.changes)).contains
      (markerFor source) = true) :
    document.contains (markerFor source) = true ∨
      .create (markerFor source) ∈ outputs.flatMap PendingOutput.changes := by
  induction outputs generalizing document with
  | nil => exact Or.inl h
  | cons output outputs ih =>
    rw [List.flatMap_cons] at h ⊢
    rw [Document.applyAll_append] at h
    rcases ih h with hmark | hlater
    · rw [PendingOutput.changes, contains_rememberChanges, Bool.or_eq_true, decide_eq_true_eq]
        at hmark
      rcases hmark with rfl | hmark
      · exact Or.inr (List.mem_append_left _ (by
          simp [PendingOutput.changes, Preferences.Outputs.rememberChanges]))
      · exact Or.inl hmark
    · exact Or.inr (List.mem_append_right _ hlater)

/-! ## What a store shows -/

/-- What a store shows whose file holds `saved`: that document, or an empty
one if the file could not be read when it was opened, with the directories
that are pending. -/
inductive Backed (path : String) : Store → Document → Prop where
  | file {file : FileStore} {saved : Document} (base : Document) (outputs : List PendingOutput)
      (hpath : file.path = path) (hmarks : Marks saved) (hbase : base = {} ∨ base = saved)
      (hpending : file.pending = outputs.flatMap PendingOutput.changes)
      (hshows : file.document = base.applyAll file.pending) : Backed path (.file file) saved

namespace Backed

variable {preferences later : Store} {saved' : Document} {pending : Option PendingOutput}

theorem saved_eq (h : Backed path preferences saved) :
    preferences.saved after = savedDocument after path := by
  cases h with
  | file _ _ hpath => rw [Store.saved, hpath]

/-- A source file that is known to a store is saved, or pending. -/
theorem saved_or_pending (h : Backed path preferences saved)
    (hknown : (lookup? preferences.document source).isSome) :
    Saved source saved ∨ ∃ file, preferences = .file file ∧
      .create (markerFor source) ∈ file.pending := by
  cases h with
  | @file file _ base outputs hpath hmarks hbase hpending hshows =>
    have hmark : file.document.contains (markerFor source) = true := by
      by_contra hnot
      rw [Store.document, lookup?, if_neg hnot] at hknown
      cases hknown
    rw [hshows, hpending] at hmark
    rcases contains_flatMap_changes hmark with hbefore | hrecorded
    · rcases hbase with rfl | rfl
      · cases hbefore
      · exact Or.inl (hmarks source hbefore)
    · rw [← hpending] at hrecorded
      exact Or.inr ⟨file, rfl, hrecorded⟩

/-- A generation keeps it, whether or not it succeeds. -/
theorem turn {succeeded : Bool} (h : Backed path preferences saved)
    (hturn : Turn Attempts saved pending preferences succeeded later saved') :
    Backed path later saved' := by
  cases hturn with
  | failed => exact h
  | known => exact h
  | shown => cases h
  | @unsaved file output =>
    cases h with
    | file base outputs hpath hmarks hbase hpending hshows =>
      refine .file base (outputs ++ [output]) hpath hmarks hbase ?_ ?_
      · rw [hpending, List.flatMap_append, List.flatMap_singleton]
      · rw [hshows, Document.applyAll_append]
  | @saved file output document _ hread =>
    cases h with
    | file base outputs hpath hmarks hbase hpending hshows =>
      have hkept : Marks (document.applyAll (file.pending ++ output.changes)) := by
        rw [hpending, Document.applyAll_append]
        cases hread with
        | saved => exact (hmarks.flatMap_changes outputs).changes output
        | unread => exact (marks_empty.flatMap_changes outputs).changes output
      exact .file _ [] hpath hkept (Or.inr rfl) rfl rfl

/-- A directory that a generation records is saved if it succeeds. -/
theorem saved_of_turn {output : PendingOutput} (h : Backed path preferences saved)
    (hturn : Turn Attempts saved (some output) preferences true later saved') :
    Saved output.source saved' := by
  cases hturn with
  | known _ hnone => cases hnone
  | shown => cases h
  | saved hpending =>
    cases hpending
    rw [Document.applyAll_append]
    exact saved_changes _ output

/-- A store that was opened shows what could be read. -/
theorem opened {file : FileStore} (hpath : file.path = path) (hmarks : Marks saved)
    (hpending : file.pending = []) (hshows : MayShow Attempts saved file.document) :
    Backed path (.file file) saved := by
  refine .file file.document [] hpath hmarks hshows.eq_empty_or_saved hpending ?_
  rw [hpending]
  rfl

end Backed

/-! ## Sessions -/

/-- Whether a preference file holds a document in which a source file is
marked and has a directory. -/
def SavedFor (memory : Memory) (path source : String) : Prop :=
  ∃ document, Decodes memory path document ∧ Saved source document

theorem savedFor_of_saved (h : Saved source (savedDocument memory path)) :
    SavedFor memory path source := by
  rcases Preferences.decodes_savedDocument memory path with hdecodes | hempty
  · exact ⟨_, hdecodes, h⟩
  · rw [hempty] at h
    cases h.1

/-- What a store shows, and its file holds, after any session with it. -/
theorem Continues.backed {opened : TestStore} {origin : Memory} {timeoutMs : Nat}
    (hwell : memory.tree.WellFormed)
    (hopen : Runs Attempts memory (openTestStore path timeoutMs) (.ok opened) origin)
    (hmarks : Marks (savedDocument origin path))
    (hsession : Continues Attempts opened origin store before) :
    store.preferences.Ready before ∧
      Backed path store.preferences (store.preferences.saved before) := by
  obtain ⟨file, hfile, hload⟩ := runs_openTestStore hopen
  obtain ⟨-, hpath, hpending, hshows⟩ := Preferences.runs_load (.refl Attempts) hwell hload
  have hstart : Backed path opened.preferences (opened.preferences.saved origin) := by
    rw [hfile, Store.saved, hpath]
    exact .opened hpath hmarks hpending hshows
  refine hsession.invariant (Backed path) (.refl Attempts)
    (ready_of_openTestStore (.refl Attempts) hwell hopen) hstart ?_ ?_
  · exact fun h _ hturn => h.turn hturn
  · rintro file file' saved ⟨base, outputs, hpath, hmarks⟩ hpath' hpending hshows
    exact .opened (hpath'.trans hpath) hmarks hpending hshows

/-- After a generation that succeeds, the source file is marked in the
preference file and has a directory there, whatever failed before.  The one
exception is a source file that was recorded before and could not be saved.
Every generation that succeeds is such a plan with its end
(`runs_generate_ok`). -/
theorem Continues.remembers {opened : TestStore} {origin : Memory} {timeoutMs : Nat}
    (hwell : memory.tree.WellFormed)
    (hopen : Runs Attempts memory (openTestStore path timeoutMs) (.ok opened) origin)
    (hmarks : Marks (savedDocument origin path))
    (hsession : Continues Attempts opened origin store before)
    {planned : Planned Attempts store settings context prompt before} {generated : Generated}
    (hfinish : Runs Attempts planned.asked (planned.finish false) (.ok generated, store') after)
    (hspares : planned.SparesPreferences after) :
    SavedFor after path planned.absolute ∨
      generated.firstTime = false ∧ ∃ file, store'.preferences = .file file ∧
        .create (markerFor planned.absolute) ∈ file.pending := by
  obtain ⟨hready, hbacked⟩ := hsession.backed hwell hopen hmarks
  obtain ⟨-, saved, hsaved, hturn⟩ := Planned.runs_carryOut (.refl Attempts) hready hfinish
  rw [hsaved hspares] at hturn
  have hafter := hbacked.turn hturn
  rw [hafter.saved_eq] at hturn hafter
  have hfirstTime := (Planned.runs_finish_ok (.refl Attempts) hfinish).1
  rcases runs_resolve planned.resolves with ⟨hknown, hlater, hnone⟩ | ⟨-, -, hsome⟩
  · -- the directory is known and nothing is recorded
    rw [hnone] at hturn
    rw [← hturn.eq_of_none] at hknown
    rcases hafter.saved_or_pending hknown with hsaved | hpending
    · exact Or.inl (savedFor_of_saved hsaved)
    · exact Or.inr ⟨hfirstTime.trans hlater, hpending⟩
  · -- the directory is recorded and saved
    rw [hsome] at hturn
    exact Or.inl (savedFor_of_saved (hbacked.saved_of_turn hturn))

/-- A store on a preference file that is missing. -/
def emptyStore : TestStore where
  preferences := .file { path := "/prefs.json", timeoutMs := 0 }
  lockDir := StatePaths.lockDir "/prefs.json"
  timeoutMs := 0

/-- The system after the store was opened. -/
def openedMemory : Memory :=
  (({} : Memory).run (openTestStore "/prefs.json" 0)).2

/-- A generation that saves its directory. -/
def savingRun : (Except Failure Generated × TestStore) × Memory :=
  openedMemory.run (generate emptyStore {} ⟨some "/a.cpp", .text "void f();"⟩ .declined false)

/-- The same generation while somebody else holds the lock for the
preferences. -/
def refusedRun : (Except Failure Generated × TestStore) × Memory :=
  (openedMemory.run (.lock (StatePaths.preferenceLock "/prefs.json") .exclusive 0)).2.run
    (generate emptyStore {} ⟨some "/a.cpp", .text "void f();"⟩ .declined false)

/-- Another generation for that source file, once the lock is free.  It has a
test file of its own. -/
def repeatedRun : (Except Failure Generated × TestStore) × Memory :=
  (refusedRun.2.release openedMemory.nextTicket).run
    (generate refusedRun.1.2 { naming := { testSuffix := "Check" } }
      ⟨some "/a.cpp", .text "void g();"⟩ .declined false)

theorem remembers_savingRun :
    ∃ (planned : Planned Attempts emptyStore {} ⟨some "/a.cpp", .text "void f();"⟩ .declined
        openedMemory) (generated : Generated),
      Runs Attempts {} (openTestStore "/prefs.json" 0) (.ok emptyStore) openedMemory ∧
      Continues Attempts emptyStore openedMemory emptyStore openedMemory ∧
      Runs Attempts planned.asked (planned.finish false) (.ok generated, savingRun.1.2)
        savingRun.2 ∧
      planned.SparesPreferences savingRun.2 ∧
      (SavedFor savingRun.2 "/prefs.json" planned.absolute ∨
        generated.firstTime = false ∧ ∃ file, savingRun.1.2.preferences = .file file ∧
          .create (markerFor planned.absolute) ∈ file.pending) := by
  have hvalues : (({} : Memory).run (openTestStore "/prefs.json" 0)).1.toOption = some emptyStore ∧
      savedDocument openedMemory "/prefs.json" = {} ∧
      savingRun.1.1.toOption.map Generated.testFile = some "/aTest.cpp" := by
    decide +kernel
  obtain ⟨hopened, hsaved, hsaving⟩ := hvalues
  have hopen := (Preferences.runs_of_toOption hopened).mono Preferences.reads_refines
  have hmarks : Marks (savedDocument openedMemory "/prefs.json") := by
    rw [hsaved]
    exact marks_empty
  obtain ⟨generated, hgenerated, htestFile⟩ := Option.map_eq_some_iff.1 hsaving
  have hrun := (Preferences.runs_fst_of_toOption hgenerated).mono Preferences.reads_refines
  obtain ⟨planned, hfinish⟩ := runs_generate_ok (.refl Attempts) hrun
  have hspares : planned.SparesPreferences savingRun.2 := by
    apply Planned.sparesPreferences_of_lastName?
    rw [← (Planned.runs_finish_ok (.refl Attempts) hfinish).2, htestFile]
    intro file hfile
    cases hfile
    decide +kernel
  exact ⟨planned, generated, hopen, .start, hfinish, hspares,
    Continues.remembers Tree.wellFormed_empty hopen hmarks .start hfinish hspares⟩

/-- A lock that is taken once keeps the directory from being saved, and the
next generation succeeds without saving it. -/
theorem not_savedFor_repeatedRun :
    (({} : Memory).run (openTestStore "/prefs.json" 0)).1.toOption = some emptyStore ∧
      refusedRun.1.1.toOption = none ∧
      repeatedRun.1.1.toOption.map Generated.firstTime = some false ∧
      ¬ SavedFor repeatedRun.2 "/prefs.json" "/a.cpp" := by
  have hvalues : (({} : Memory).run (openTestStore "/prefs.json" 0)).1.toOption =
        some emptyStore ∧
      refusedRun.1.1.toOption = none ∧
      repeatedRun.1.1.toOption.map Generated.firstTime = some false ∧
      (repeatedRun.2.tree.read repeatedRun.2.current "/prefs.json").toOption = none := by
    decide +kernel
  obtain ⟨hopened, hrefused, hrepeated, hmissing⟩ := hvalues
  refine ⟨hopened, hrefused, hrepeated, ?_⟩
  rintro ⟨document, ⟨text, hread, -⟩, -⟩
  rw [hread] at hmissing
  cases hmissing

end TestSkeleton.Generation
