import TestSkeleton.Proofs.Generation.Choosing
import TestSkeleton.Proofs.Generation.Reusing
import TestSkeleton.Proofs.Generation.Sources

/-!
# Spellings of a source file

A source file is remembered under its path from the root.  That path is the
real one if the file exists, and is made from the path that was given
otherwise; both are the path of the same place.

* `Spells` says that a path without `..`, seen from the current directory, is
  one of the spellings of a place.  `Spells.runs_absoluteSource` is the path
  from the root that it gets, and `Spells.run_absoluteSource` that it gets one.
* `Spells.shares_directory` is what follows for a session: a directory that
  was remembered under one spelling is found under all.
-/

namespace TestSkeleton.Generation

open Files
open Files.Action (Runs runs_done)
open Memory (Attempts pathOf)
open Preferences (Reads)

variable {serves : Behaviour} {memory after : Memory} {naming : Naming} {source absolute : String}

/-! ## The path from the root -/

theorem not_endsWithSlash_of_isSource (h : naming.isSource source = true) :
    Path.endsWithSlash source = false := by
  rw [Bool.eq_false_iff]
  intro hslash
  obtain ⟨front, hfront⟩ := Path.exists_of_endsWithSlash hslash
  rw [Naming.isSource, hfront, Path.extension?, Path.fileName_append_slash] at h
  cases h

/-- A source file has a path from the root if nothing fails. -/
theorem exists_run_absoluteSource (hsource : naming.isSource source = true) (memory : Memory) :
    ∃ absolute, memory.run (absoluteSource source) = (.ok absolute, memory) := by
  rw [absoluteSource, Action.bind_eq, Memory.run_andThen, Memory.run_realPath]
  cases memory.realPath source with
  | ok path => exact ⟨path, rfl⟩
  | error fault =>
    simp only [isEmpty_of_isSource hsource, Bool.false_eq_true, if_false]
    split
    · exact ⟨_, rfl⟩
    · exact ⟨_, rfl⟩

/-- Whether a path, seen from the current directory, is one of the spellings
of a source file at a place: from the root with one slash in front, or
relative, and without `..`. -/
structure Spells (naming : Naming) (memory : Memory) (source : String) (place : Place) : Prop where
  isSource : naming.isSource source = true
  isDirect : Path.IsDirect source
  notDoubled : Path.startsWithTwoSlashes source = false
  current : ∀ name ∈ memory.current, Path.IsName name
  place_eq : Tree.lexical memory.current source = place

namespace Spells

variable {place : Place}

/-- The path that is made from a spelling is the path of the place. -/
theorem absolute_eq (h : Spells naming memory source place) :
    Path.absolute (pathOf memory.current) source = pathOf place := by
  rw [← h.place_eq]
  exact Path.absolute_eq_pathOf (fun name hname => (h.current name hname).1) h.notDoubled
    (not_endsWithSlash_of_isSource h.isSource)

/-- Whether or not the file exists, and whoever changes the files meanwhile, a
spelling of a place gets no other path than the path of the place. -/
theorem runs_absoluteSource (hserves : Locates serves) (h : Spells naming memory source place)
    (hrun : Runs serves memory (absoluteSource source) (.ok absolute) after) :
    absolute = pathOf place := by
  rcases Generation.runs_absoluteSource hserves hrun with ⟨tree, found, hlocate, rfl⟩ | rfl
  · rw [Tree.locate_eq_lexical hlocate h.isDirect, h.place_eq]
  · exact h.absolute_eq

/-- A spelling of a place gets a path if nothing fails. -/
theorem run_absoluteSource (h : Spells naming memory source place) :
    memory.run (absoluteSource source) = (.ok (pathOf place), memory) := by
  obtain ⟨absolute, hrun⟩ := exists_run_absoluteSource h.isSource memory
  rw [hrun, h.runs_absoluteSource (locates_of_refines Memory.carriesOut_refines)
    (runs_carriesOut.2 hrun)]

theorem later {memory' : Memory} (h : Spells naming memory source place)
    (hcurrent : memory'.current = memory.current) : Spells naming memory' source place where
  isSource := h.isSource
  isDirect := h.isDirect
  notDoubled := h.notDoubled
  current := by
    rw [hcurrent]
    exact h.current
  place_eq := by
    rw [hcurrent]
    exact h.place_eq

/-- A generation for a spelling of a place is about the path of the place. -/
theorem planned_absolute {store : TestStore} {settings : Settings} {context : Source.Context}
    {prompt : Source.FolderPrompt} (hserves : Locates serves) (h : Spells naming memory source place)
    {planned : Planned serves store settings context prompt memory}
    (hsource : planned.source = source) : planned.absolute = pathOf place := by
  have hlocates := planned.locates
  rw [hsource] at hlocates
  exact (h.later (hserves.runs_current planned.selects)).runs_absoluteSource hserves hlocates

end Spells

/-! ## The remembered directory -/

/-- Two spellings of a place get the same path, the path of the place, however
the files look at the time of each.  So a directory that a generation under
one spelling has remembered is the directory of every later generation in the
session under the other, where nobody is asked. -/
theorem Spells.shares_directory {naming naming' : Naming} {memory memory' : Memory}
    {source source' : String} {place : Place} (h : Spells naming memory source place)
    (h' : Spells naming' memory' source' place) :
    (memory.run (absoluteSource source) = (.ok (pathOf place), memory) ∧
      memory'.run (absoluteSource source') = (.ok (pathOf place), memory')) ∧
    ∀ {serves : Behaviour} {store store₁ store₂ : TestStore} {settings settings' : Settings}
      {context context' : Source.Context} {prompt prompt' : Source.FolderPrompt} {memory₁ : Memory}
      {first : Planned serves store settings context prompt memory} {generated : Generated}
      {later : Planned serves store₂ settings' context' prompt' memory'},
      Refines serves Attempts → (∀ file, store.preferences = .file file → Refines serves Reads) →
      store.preferences.Ready memory → prompt ≠ .fixed "" → first.source = source →
      Runs serves first.asked (first.finish false) (.ok generated, store₁) memory₁ →
      generated.firstTime = true → Continues serves store₁ memory₁ store₂ memory' →
      later.source = source' →
      later.asked = later.located ∧ later.resolved = ⟨first.resolved.directory, false, none⟩ := by
  refine ⟨⟨h.run_absoluteSource, h'.run_absoluteSource⟩, ?_⟩
  intro serves store store₁ store₂ settings settings' context context' prompt prompt' memory₁ first
    generated later hserves hreads hready hprompt hsource hfirst hfirstTime hsession hsource'
  have hlocates := locates_of_refines hserves
  obtain ⟨hready₁, hreads₁, hrecalls⟩ :=
    Planned.recalls hserves hreads hready hprompt hfirst hfirstTime
  have hshows := (hsession.recalls hserves hreads₁ hready₁ hrecalls).shows
  rw [h.planned_absolute hlocates hsource] at hshows
  have hresolves := later.resolves
  rw [h'.planned_absolute hlocates hsource', hshows.resolve_eq, runs_done] at hresolves
  exact hresolves.symm

/-- A system in which the source file is not written yet. -/
def unwrittenMemory : Memory where
  tree := ⟨[(["locks"], .directory)]⟩

/-- A store in memory. -/
def spelledStore : TestStore where
  preferences := .memory {}
  lockDir := "/locks"

/-- The first generation for the source file. -/
def unwrittenRun : (Except Failure Generated × TestStore) × Memory :=
  unwrittenMemory.run (generate spelledStore {} ⟨some "/src//./Job.cpp", .text "void Run();"⟩
    (.fixed "/lib") false)

/-- The system with the source file, seen from its directory. -/
def writtenMemory : Memory where
  tree := ⟨[(["locks"], .directory), (["src"], .directory),
    (["src", "Job.cpp"], .file "void Run();\n".toUTF8)]⟩
  current := ["src"]

/-- A generation for the source file that is there now. -/
def writtenRun : (Except Failure Generated × TestStore) × Memory :=
  writtenMemory.run (generate unwrittenRun.1.2 {} ⟨some "./Job.cpp", .line 1⟩ .interactive true)

theorem spells_unwrittenMemory :
    Spells {} unwrittenMemory "/src//./Job.cpp" ["src", "Job.cpp"] where
  isSource := by decide
  isDirect := show ".." ∉ _ by decide
  notDoubled := by decide
  current := List.forall_mem_nil _
  place_eq := by decide

theorem spells_writtenMemory : Spells {} writtenMemory "./Job.cpp" ["src", "Job.cpp"] where
  isSource := by decide
  isDirect := show ".." ∉ _ by decide
  notDoubled := by decide
  current name hname := by
    rw [List.mem_singleton.1 hname]
    exact ⟨⟨show '/' ∉ _ by decide, by decide⟩, by decide⟩
  place_eq := by decide

/-- The directory that was remembered before the file was written is used
without a question. -/
theorem shares_directory_written :
    Spells {} unwrittenMemory "/src//./Job.cpp" ["src", "Job.cpp"] ∧
    Spells {} writtenMemory "./Job.cpp" ["src", "Job.cpp"] ∧
    (unwrittenMemory.run (absoluteSource "/src//./Job.cpp")).1 =
      (writtenMemory.run (absoluteSource "./Job.cpp")).1 ∧
    ∃ (first : Planned Reads spelledStore {} ⟨some "/src//./Job.cpp", .text "void Run();"⟩
        (.fixed "/lib") unwrittenMemory) (generated : Generated)
      (later : Planned Reads unwrittenRun.1.2 {} ⟨some "./Job.cpp", .line 1⟩ .interactive
        writtenMemory),
      Runs Reads first.asked (first.finish false) (.ok generated, unwrittenRun.1.2)
        unwrittenRun.2 ∧
      generated.firstTime = true ∧ first.testFile = "/lib/JobTest.cpp" ∧
      Continues Reads unwrittenRun.1.2 unwrittenRun.2 unwrittenRun.1.2 writtenMemory ∧
      later.asked = later.located ∧ later.resolved = ⟨first.resolved.directory, false, none⟩ := by
  obtain ⟨hkeys, hfinds⟩ := spells_unwrittenMemory.shares_directory spells_writtenMemory
  refine ⟨spells_unwrittenMemory, spells_writtenMemory, by rw [hkeys.1, hkeys.2], ?_⟩
  have hok : unwrittenRun.1.1.toOption.map (fun done => (done.firstTime, done.testFile)) =
        some (true, "/lib/JobTest.cpp") ∧
      unwrittenRun.1.2.savePaths 0 = [] ∧
      writtenRun.1.1.toOption.isSome = true := by
    decide +kernel
  obtain ⟨hfirst, hmemory, hlater⟩ := hok
  obtain ⟨generated, hgenerated, hreports⟩ := Option.map_eq_some_iff.1 hfirst
  obtain ⟨first, hfirstRuns⟩ := runs_generate_ok Preferences.reads_refines
    (Preferences.runs_fst_of_toOption hgenerated)
  obtain ⟨shown, hshown⟩ := Option.isSome_iff_exists.1 hlater
  obtain ⟨later, -⟩ := runs_generate_ok Preferences.reads_refines
    (Preferences.runs_fst_of_toOption hshown)
  obtain ⟨hfirstTime, htestFile⟩ := Prod.mk.inj hreports
  have hsession : Continues Reads unwrittenRun.1.2 unwrittenRun.2 unwrittenRun.1.2
      writtenMemory := by
    refine Continues.start.outside ?_
    cases hpreferences : unwrittenRun.1.2.preferences with
    | memory document => trivial
    | file file =>
      rw [TestStore.savePaths, hpreferences] at hmemory
      cases hmemory
  have hsources : first.source = "/src//./Job.cpp" ∧ later.source = "./Job.cpp" :=
    ⟨(Except.ok.inj first.isPath).symm, (Except.ok.inj later.isPath).symm⟩
  refine ⟨first, generated, later, hfirstRuns, hfirstTime, ?_, hsession, ?_⟩
  · exact (Planned.runs_finish_ok Preferences.reads_refines hfirstRuns).2.symm.trans htestFile
  · have hnoFile : ∀ file, spelledStore.preferences = .file file → Refines Reads Reads := by
      intro file hfile
      cases hfile
    exact hfinds Preferences.reads_refines hnoFile trivial (by decide) hsources.1 hfirstRuns
      hfirstTime hsession hsources.2

end TestSkeleton.Generation
