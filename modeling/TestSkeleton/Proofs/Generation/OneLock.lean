import TestSkeleton.Proofs.Generation.Directories
import TestSkeleton.Proofs.Generation.Spellings
import TestSkeleton.Proofs.Writers.Serializing

/-!
# One lock for one test file

The lock for a test file is named after the text of its path.  Nothing
follows that path before the lock is taken, so that two texts for one place
are two locks.

* `isTidy_absoluteSource` and `isTidy_resolve` say that the directory of a
  test file is written without steps that go nowhere, whether it is found,
  made from what was given, answered or remembered.
* `Planned.IsSpelled` is what then leaves one text for each place: the path
  of the test file starts at the root and does not go up.
* `Planned.sharesLock` is the result for two generations: the same path, the
  same lock, and writes that take turns.
* `DividesLock` is an answer with which one test file has two locks: one that
  goes up, one with two slashes in front, and an empty one.
-/

namespace TestSkeleton.Generation

open Files
open Files.Action (Runs)
open Memory (HoldsLock Serves)
open Preferences.Outputs (lookup?)

variable {serves serves' : Behaviour} {store store' : TestStore} {settings settings' : Settings}
  {context context' : Source.Context} {prompt prompt' : Source.FolderPrompt}
  {memory memory' after : Memory}

/-! ## Tidy directories -/

theorem isTidy_absoluteSource {source absolute : String} (hserves : Locates serves)
    (hcurrent : ∀ name ∈ memory.current, Path.IsName name)
    (h : Runs serves memory (absoluteSource source) (.ok absolute) after) :
    Path.IsTidy absolute := by
  rcases runs_absoluteSource hserves h with ⟨tree, place, hlocate, rfl⟩ | rfl
  · exact Path.isTidy_pathOf fun name hname => (Tree.isName_of_locate hlocate hcurrent name hname).1
  · exact Path.isTidy_absolute (fun name hname => (hcurrent name hname).1) source

theorem isTidy_resolve {absolute : String} {resolved : ResolvedOutput} (hserves : Locates serves)
    (hcurrent : ∀ name ∈ memory.current, Path.IsName name) (habsolute : Path.IsTidy absolute)
    (hstored : ∀ stored directory, lookup? store.preferences.document absolute = some stored →
      stored.directory = some directory → Path.IsTidy directory)
    (h : Runs serves memory (store.resolve absolute prompt) resolved after) :
    Path.IsTidy resolved.directory := by
  have hchoice := choice_of_runs hserves h
  generalize resolved.directory = directory at hchoice ⊢
  cases hchoice with
  | beside => exact habsolute.containingDir
  | remembered hlookup hdirectory => exact hstored _ _ hlookup hdirectory
  | same hchoose hrelative => exact Path.isTidy_of_not_isAbsolute hrelative
  | answered hchoose => exact Path.isTidy_absolute (fun name hname => (hcurrent name hname).1) _

section

variable (planned : Planned serves store settings context prompt memory)

theorem Planned.current_selected (hserves : Locates serves) :
    planned.selected.current = memory.current :=
  hserves.runs_current planned.selects

theorem Planned.isTidy_absolute (hserves : Locates serves)
    (hcurrent : ∀ name ∈ memory.current, Path.IsName name) : Path.IsTidy planned.absolute := by
  refine isTidy_absoluteSource hserves ?_ planned.locates
  rw [planned.current_selected hserves]
  exact hcurrent

theorem Planned.isTidy_directory (hserves : Locates serves)
    (hcurrent : ∀ name ∈ memory.current, Path.IsName name)
    (hstored : ∀ stored directory,
      lookup? store.preferences.document planned.absolute = some stored →
      stored.directory = some directory → Path.IsTidy directory) :
    Path.IsTidy planned.resolved.directory := by
  refine isTidy_resolve hserves ?_ (planned.isTidy_absolute hserves hcurrent) hstored
    planned.resolves
  rw [hserves.runs_current planned.locates, planned.current_selected hserves]
  exact hcurrent

end

/-- Whether a directory was recorded by some generation, and not by hand. -/
def IsRecorded (directory : String) : Prop :=
  ∃ (serves : Behaviour) (store : TestStore) (settings : Settings) (context : Source.Context)
    (prompt : Source.FolderPrompt) (memory : Memory)
    (planned : Planned serves store settings context prompt memory) (output : PendingOutput),
    Locates serves ∧ (∀ name ∈ memory.current, Path.IsName name) ∧
      planned.resolved.pending = some output ∧ output.directory = directory

theorem isTidy_of_isRecorded {directory : String} (h : IsRecorded directory) :
    Path.IsTidy directory := by
  obtain ⟨serves, store, settings, context, prompt, memory, planned, output, hserves, hcurrent,
    hpending, rfl⟩ := h
  rcases runs_resolve planned.resolves with ⟨-, -, hnone⟩ | ⟨hunknown, -, hsome⟩
  · rw [hnone] at hpending
    cases hpending
  · rw [hsome, Option.some.injEq] at hpending
    rw [← hpending]
    refine planned.isTidy_directory hserves hcurrent fun stored directory hlookup => ?_
    rw [hunknown] at hlookup
    cases hlookup

/-! ## One text for each place -/

/-- What leaves one text for the place of a test file, up to a second slash in
front. -/
structure Planned.IsSpelled (planned : Planned serves store settings context prompt memory) :
    Prop where
  suffix : '/' ∉ settings.naming.testSuffix.toList
  current : ∀ name ∈ memory.current, Path.IsName name
  /-- No directory in the preferences was put there by hand. -/
  recorded : ∀ source directory,
    store.preferences.document.getString? Preferences.Outputs.rootCollection source =
      some directory → IsRecorded directory
  isAbsolute : Path.isAbsolute planned.testFile = true
  isDirect : Path.IsDirect planned.testFile

namespace Planned.IsSpelled

variable {planned : Planned serves store settings context prompt memory}
  {planned' : Planned serves' store' settings' context' prompt' memory'}

theorem exists_rooted (hserves : Locates serves) (h : planned.IsSpelled) :
    ∃ parts : Path.Rooted, parts.slash = false ∧ planned.testFile = parts.text := by
  have hdirectory : Path.IsTidy planned.resolved.directory := by
    refine planned.isTidy_directory hserves h.current fun stored directory hlookup hsome => ?_
    exact isTidy_of_isRecorded (h.recorded _ _ (getString?_of_lookup? hlookup hsome))
  have hname : Path.IsStep planned.plan.fileName := by
    rw [planned.fileName_eq]
    have hlength := length_testFileOf planned.isSource
    exact Path.isStep_of_two_le (isSegment_testFileOf planned.isSource h.suffix) (by omega)
  exact hdirectory.join hname h.isAbsolute

/-- Two test files at one place have one path. -/
theorem testFile_eq (hserves : Locates serves) (hserves' : Locates serves') (h : planned.IsSpelled)
    (h' : planned'.IsSpelled)
    (hdoubled : Path.startsWithTwoSlashes planned.testFile =
      Path.startsWithTwoSlashes planned'.testFile)
    (hsame : Tree.nominal memory.current planned.testFile =
      Tree.nominal memory'.current planned'.testFile) :
    planned.testFile = planned'.testFile := by
  obtain ⟨parts, hslash, htext⟩ := h.exists_rooted hserves
  obtain ⟨parts', hslash', htext'⟩ := h'.exists_rooted hserves'
  rw [Tree.nominal_eq_lexical h.isDirect, Tree.nominal_eq_lexical h'.isDirect, Tree.lexical,
    Tree.lexical, Tree.startOf, Tree.startOf, h.isAbsolute, h'.isAbsolute, htext, htext',
    Path.Rooted.steps_text, Path.Rooted.steps_text] at hsame
  rw [htext, htext', Path.Rooted.startsWithTwoSlashes_text,
    Path.Rooted.startsWithTwoSlashes_text] at hdoubled
  rw [htext, htext']
  exact Path.Rooted.eq_of_names hsame hdoubled (hslash.trans hslash'.symm)

end Planned.IsSpelled

/-! ## One lock -/

/-- The write of a generation, as one of several calls. -/
def Planned.call (planned : Planned serves store settings context prompt memory) :
    Writers.Call where
  preferences := store.preferences
  timeoutMs := store.timeoutMs
  document := planned.plan.document
  caseName := planned.plan.caseName
  caseText := planned.plan.caseText

/-- The lock file for the test file of a generation. -/
def Planned.lockFile (planned : Planned serves store settings context prompt memory) : String :=
  StatePaths.lockFile store.lockDir planned.testFile

/-- The write of a generation. -/
def Planned.write (planned : Planned serves store settings context prompt memory) :
    Action (Except Failure WriteOutcome) :=
  store.writeCase planned.testFile planned.plan.document planned.plan.caseName
    planned.plan.caseText

/-- Whether the file at a path holds what the calls that succeeded make of it,
one after another and each once. -/
def KeepsCases (path : String) (calls : Nat → Writers.Call) (base? : Option String)
    (world : Writers.World) : Prop :=
  ∃ text?, Writers.inSequence calls base? world.log = .ok text? ∧
    Writers.FileAt world.memory path text? ∧ world.log.Nodup ∧
    ∀ i outcome, world.callers i = .ended (.ok outcome) → i ∈ world.log

/-- What two generations have in common that write one test file. -/
structure SharesLock (planned : Planned serves store settings context prompt memory)
    (planned' : Planned serves' store' settings' context' prompt' memory') : Prop where
  testFile : planned.testFile = planned'.testFile
  lockFile : planned.lockFile = planned'.lockFile
  /-- While one of them holds its lock, the other is not granted its own. -/
  excludes : ∀ {held after : Memory} {ticket ticket' timeoutMs : Nat},
    HoldsLock held planned.lockFile ticket .exclusive →
      ¬ Serves held (.lock planned'.lockFile .exclusive timeoutMs) (Except.ok ticket') after
  /-- However the two writes are interleaved, with any others on the file, no
  case is lost. -/
  keeps : ∀ {calls : Nat → Writers.Call} {base? : Option String} {start : Memory}
    {world : Writers.World}, calls 0 = planned.call → calls 1 = planned'.call →
    Writers.Begins store.lockDir planned.testFile base? start →
    Writers.Reaches store.lockDir planned.testFile calls { memory := start } world →
      (calls 0).action store.lockDir planned.testFile = planned.write ∧
      (calls 1).action store.lockDir planned.testFile = planned'.write ∧
      KeepsCases planned.testFile calls base? world

theorem keepsCases {lockDir path : String} {calls : Nat → Writers.Call} {base? : Option String}
    {start : Memory} {world : Writers.World} (hbegins : Writers.Begins lockDir path base? start)
    (hreach : Writers.Reaches lockDir path calls { memory := start } world) :
    KeepsCases path calls base? world := by
  obtain ⟨text?, phases, -, h⟩ := hreach.consistent hbegins
  refine ⟨text?, h.accounted.contents, h.shared.file, h.accounted.order.nodup h.accounted.nodup, ?_⟩
  intro i outcome hended
  obtain ⟨earlier, later, hlog, -⟩ := h.succeeded hended
  rw [hlog]
  simp

/-- Two generations whose test files are at one place share its lock, if both
paths start at the root, with one slash or two alike, and do not go up.  The
sources, the answers and the current directories may be any. -/
theorem Planned.sharesLock (hserves : Locates serves) (hserves' : Locates serves')
    {planned : Planned serves store settings context prompt memory}
    {planned' : Planned serves' store' settings' context' prompt' memory'}
    (hspelled : planned.IsSpelled) (hspelled' : planned'.IsSpelled)
    (hlockDir : store.lockDir = store'.lockDir)
    (hdoubled : Path.startsWithTwoSlashes planned.testFile =
      Path.startsWithTwoSlashes planned'.testFile)
    (hsame : Tree.nominal memory.current planned.testFile =
      Tree.nominal memory'.current planned'.testFile) : SharesLock planned planned' := by
  have htestFile := hspelled.testFile_eq hserves hserves' hspelled' hdoubled hsame
  have hlockFile : planned.lockFile = planned'.lockFile := by
    rw [Planned.lockFile, Planned.lockFile, hlockDir, htestFile]
  refine ⟨htestFile, hlockFile, ?_, ?_⟩
  · intro held after ticket ticket' timeoutMs hholds hgranted
    rw [← hlockFile] at hgranted
    cases (hholds.granted hgranted).1
  · intro calls base? start world hfirst hsecond hbegins hreach
    refine ⟨by rw [hfirst]; rfl, ?_, keepsCases hbegins hreach⟩
    rw [hsecond, hlockDir, htestFile]
    rfl

/-- What a generation that reports a test file knows when it writes it. -/
theorem exists_planned {dryRun : Bool} {testFile : String}
    (h : (memory.run (generate store settings context prompt dryRun)).1.1.toOption.map
      Generated.testFile = some testFile) :
    ∃ planned : Planned CarriesOut store settings context prompt memory,
      planned.testFile = testFile := by
  cases hrun : memory.run (generate store settings context prompt dryRun) with
  | mk reply after =>
    obtain ⟨result, store'⟩ := reply
    rw [hrun] at h
    cases result with
    | error failure => cases h
    | ok generated =>
      obtain ⟨planned, hfinish⟩ :=
        runs_generate_ok Memory.carriesOut_refines (runs_carriesOut.2 hrun)
      have htestFile := (Planned.runs_finish_ok Memory.carriesOut_refines hfinish).2
      exact ⟨planned, htestFile.symm.trans (Option.some.inj h)⟩

/-! ## A test file with two locks -/

/-- A system with two directories for sources, seen from a directory. -/
def crossedMemory (current : Place) : Memory where
  tree := ⟨[(["locks"], .directory), (["lib"], .directory), (["src"], .directory)]⟩
  current := current

/-- A store on `/p`. -/
def crossedStore : TestStore where
  preferences := .file { path := "/p", timeoutMs := 0 }
  lockDir := StatePaths.lockDir "/p"
  timeoutMs := 0

/-- The test file that a generation for a source file reports. -/
def crossedTestFile? (memory : Memory) (source : String) (prompt : Source.FolderPrompt) :
    Option String :=
  (memory.run
    (generate crossedStore {} ⟨some source, .text "void Run();"⟩ prompt false)).1.1.toOption.map
    Generated.testFile

theorem recorded_crossedStore (source directory : String)
    (h : crossedStore.preferences.document.getString? Preferences.Outputs.rootCollection source =
      some directory) : IsRecorded directory := by
  cases h

/-- Two generations from two directories, for two source files of one name,
share the lock for the test file. -/
theorem sharesLock_crossed :
    ∃ (planned : Planned CarriesOut crossedStore {} ⟨some "/src/Job.cpp", .text "void Run();"⟩
        .declined (crossedMemory []))
      (planned' : Planned CarriesOut crossedStore {} ⟨some "../lib//Job.cpp", .text "void Run();"⟩
        (.fixed "./") (crossedMemory ["src"])),
      Locates CarriesOut ∧ planned.IsSpelled ∧ planned'.IsSpelled ∧
      Path.startsWithTwoSlashes planned.testFile =
        Path.startsWithTwoSlashes planned'.testFile ∧
      Tree.nominal [] planned.testFile = Tree.nominal ["src"] planned'.testFile ∧
      SharesLock planned planned' := by
  have hok : crossedTestFile? (crossedMemory []) "/src/Job.cpp" .declined =
        some "/src/JobTest.cpp" ∧
      crossedTestFile? (crossedMemory ["src"]) "../lib//Job.cpp" (.fixed "./") =
        some "/src/JobTest.cpp" := by
    decide +kernel
  obtain ⟨planned, htestFile⟩ := exists_planned hok.1
  obtain ⟨planned', htestFile'⟩ := exists_planned hok.2
  have hlocates : Locates CarriesOut := locates_of_refines Memory.carriesOut_refines
  have hsuffix : '/' ∉ ({} : Settings).naming.testSuffix.toList := by decide
  have hspelled : planned.IsSpelled := by
    refine ⟨hsuffix, List.forall_mem_nil _, recorded_crossedStore, ?_, ?_⟩
    · rw [htestFile]
      rfl
    · rw [htestFile]
      exact show ".." ∉ _ by decide
  have hspelled' : planned'.IsSpelled := by
    refine ⟨hsuffix, fun name hname => ?_, recorded_crossedStore, ?_, ?_⟩
    · rw [List.mem_singleton.1 hname]
      exact ⟨⟨show '/' ∉ _ by decide, by decide⟩, by decide⟩
    · rw [htestFile']
      rfl
    · rw [htestFile']
      exact show ".." ∉ _ by decide
  have hdoubled : Path.startsWithTwoSlashes planned.testFile =
      Path.startsWithTwoSlashes planned'.testFile := by
    rw [htestFile, htestFile']
  have hsame : Tree.nominal [] planned.testFile = Tree.nominal ["src"] planned'.testFile := by
    rw [htestFile, htestFile']
    decide
  exact ⟨planned, planned', hlocates, hspelled, hspelled', hdoubled, hsame,
    Planned.sharesLock hlocates hlocates hspelled hspelled' rfl hdoubled hsame⟩

/-- The lock file for the test file beside a source file. -/
def crossedLock : String :=
  StatePaths.lockFile crossedStore.lockDir "/src/JobTest.cpp"

/-- The system while somebody holds that lock. -/
def heldMemory : Memory :=
  ((crossedMemory ["src"]).lock crossedLock .exclusive).2

theorem holdsLock_heldMemory : HoldsLock heldMemory crossedLock 0 .exclusive := by
  have hok : ((crossedMemory ["src"]).lock crossedLock .exclusive).1.toOption = some 0 := by
    decide +kernel
  have hgranted := eq_ok_of_toOption hok
  exact @Memory.holdsLock_of_granted (crossedMemory ["src"]) heldMemory _ .exclusive 0 0
    (Or.inl (Prod.ext hgranted.symm rfl))

/-- Whether an answer gives the test file beside a source file a second path
and a second lock, which is granted while the first one is held. -/
def DividesLock (answer : String) : Prop :=
  ∃ (planned : Planned CarriesOut crossedStore {} ⟨some "/src/Job.cpp", .text "void Run();"⟩
      .declined (crossedMemory ["src"]))
    (planned' : Planned CarriesOut crossedStore {} ⟨some "/src/Job.cpp", .text "void Run();"⟩
      (.fixed answer) (crossedMemory ["src"])),
    Tree.nominal ["src"] planned.testFile = Tree.nominal ["src"] planned'.testFile ∧
    planned.lockFile ≠ planned'.lockFile ∧
    HoldsLock heldMemory planned.lockFile 0 .exclusive ∧
    crossedTestFile? heldMemory "/src/Job.cpp" (.fixed answer) = some planned'.testFile

theorem dividesLock_of_runs {answer testFile : String}
    (hsecond : crossedTestFile? (crossedMemory ["src"]) "/src/Job.cpp" (.fixed answer) =
      some testFile)
    (hheld : crossedTestFile? heldMemory "/src/Job.cpp" (.fixed answer) = some testFile)
    (hsame : Tree.nominal ["src"] testFile = ["src", "JobTest.cpp"])
    (hlockFile : crossedLock ≠ StatePaths.lockFile crossedStore.lockDir testFile) :
    DividesLock answer := by
  have hfirst : crossedTestFile? (crossedMemory ["src"]) "/src/Job.cpp" .declined =
      some "/src/JobTest.cpp" := by
    decide +kernel
  obtain ⟨planned, htestFile⟩ := exists_planned hfirst
  obtain ⟨planned', htestFile'⟩ := exists_planned hsecond
  have hlock : planned.lockFile = crossedLock := by rw [Planned.lockFile, htestFile, crossedLock]
  refine ⟨planned, planned', ?_, ?_, ?_, ?_⟩
  · rw [htestFile, htestFile', hsame]
    decide
  · rw [hlock, Planned.lockFile, htestFile']
    exact hlockFile
  · rw [hlock]
    exact holdsLock_heldMemory
  · rw [hheld, htestFile']

/-- A test file has a second lock if the answer goes up, if it starts with two
slashes, and if it is empty, with which the path is relative. -/
theorem dividesLock_unspelled :
    DividesLock "/lib/../src" ∧ DividesLock "//src" ∧ DividesLock "" := by
  have hup := @dividesLock_of_runs "/lib/../src" "/lib/../src/JobTest.cpp" (by decide +kernel)
    (by decide +kernel) (by decide) (by decide +kernel)
  have hdoubled := @dividesLock_of_runs "//src" "//src/JobTest.cpp" (by decide +kernel)
    (by decide +kernel) (by decide) (by decide +kernel)
  have hrelative := @dividesLock_of_runs "" "JobTest.cpp" (by decide +kernel) (by decide +kernel)
    (by decide) (by decide +kernel)
  exact ⟨hup, hdoubled, hrelative⟩

end TestSkeleton.Generation
