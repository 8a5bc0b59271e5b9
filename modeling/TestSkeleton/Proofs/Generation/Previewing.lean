import TestSkeleton.Proofs.Files.LockDirectories
import TestSkeleton.Proofs.Generation.Attempting

/-!
# Dry runs

A dry run shows what a generation would do.  It looks for the test file
without a lock, while the generation that follows decides under the lock
whether there is one, after it may have made the lock file.

* `prepare` is the part of a generation that both have in common, and
  `generate_eq` says so.
* `Fulfils` says that a generation did what was shown, and `Delivers` what it
  left in the test file.
* `dryRun_predicts` puts these together.
* `not_delivers_shadowedRun` is a generation that saves its preferences by
  way of its test file.
-/

namespace TestSkeleton.Generation

open Files
open Files.Action (Runs runs_done runs_step runs_andThen)
open Memory (Attempts Frames Leads HasFile)

variable {store store' : TestStore} {settings : Settings} {context : Source.Context}
  {prompt : Source.FolderPrompt} {memory after : Memory}

/-! ## What both runs have in common -/

/-- The part of a generation in which it only looks: the plan, and where it
goes. -/
def prepare (store : TestStore) (settings : Settings) (context : Source.Context)
    (prompt : Source.FolderPrompt) : Action (Except Failure (Plan × ResolvedOutput)) := do
  match context.path with
  | .error failure => return .error failure
  | .ok source =>
    if !settings.naming.isSource source then
      return .error (.unsupportedFileType source settings.naming.sourceExtension)
    else
      match (← context.selectedLine) with
      | .error failure => return .error failure
      | .ok line =>
        match plan settings source line with
        | .error failure => return .error failure
        | .ok plan =>
          match (← absoluteSource source) with
          | .error fault => return .error (.io fault)
          | .ok absolute => return .ok (plan, ← store.resolve absolute prompt)

/-- The path of the test file. -/
def testFileOf (plan : Plan) (resolved : ResolvedOutput) : String :=
  Path.join resolved.directory plan.fileName

/-- A generation prepares, and then shows or writes. -/
theorem generate_eq (store : TestStore) (settings : Settings) (context : Source.Context)
    (prompt : Source.FolderPrompt) (dryRun : Bool) :
    generate store settings context prompt dryRun =
      (prepare store settings context prompt).andThen fun
        | .error failure => .done (.error failure, store)
        | .ok (plan, resolved) =>
          if dryRun then
            (preview plan resolved (testFileOf plan resolved)).andThen fun shown =>
              .done (.ok shown, store)
          else carryOut store plan resolved (testFileOf plan resolved) := by
  rw [generate, prepare]
  cases context.path with
  | error failure => rfl
  | ok source =>
    simp only
    split
    · rfl
    · simp only [Action.bind_eq, Action.andThen_assoc]
      congr 1
      funext reply
      cases reply with
      | error failure => rfl
      | ok line =>
        cases hplan : plan settings source line with
        | error failure =>
          simp only [hplan]
          rfl
        | ok planned =>
          simp only [hplan, generatePlan, Action.bind_eq, Action.andThen_assoc]
          congr 1
          funext located
          cases located with
          | error fault => rfl
          | ok absolute =>
            simp only [Action.andThen_assoc]
            rfl

namespace SameFiles

variable {path : String} {place : Place}

theorem leads_iff (h : SameFiles memory after) : Leads after path place ↔ Leads memory path place := by
  rw [Leads, Leads, h.tree, h.current]

theorem hasFile_iff (h : SameFiles memory after) {content : ByteArray} :
    HasFile after path content ↔ HasFile memory path content := by
  rw [HasFile, HasFile, h.tree, h.current]

end SameFiles

theorem sameFiles_prepare (store : TestStore) (settings : Settings) (context : Source.Context)
    (prompt : Source.FolderPrompt) (memory : Memory) :
    SameFiles memory (memory.run (prepare store settings context prompt)).2 := by
  have hsame : SameFiles memory memory := ⟨rfl, rfl, rfl⟩
  rw [prepare]
  cases context.path with
  | error failure => exact hsame
  | ok source =>
    simp only
    split
    · exact hsame
    · rw [Action.bind_eq, Memory.run_andThen, run_selectedLine]
      cases (memory.run context.selectedLine).1 with
      | error failure => exact hsame
      | ok line =>
        cases hplan : plan settings source line with
        | error failure =>
          simp only [hplan]
          exact hsame
        | ok planned =>
          simp only [hplan, Action.bind_eq, Memory.run_andThen, run_absoluteSource]
          cases (memory.run (absoluteSource source)).1 with
          | error fault => exact hsame
          | ok absolute =>
            simp only [Memory.run_andThen]
            exact sameFiles_resolve store absolute prompt memory

/-- A generation that cannot prepare fails, dry run or not. -/
theorem run_generate_refused {failure : Failure} {asked : Memory}
    (h : memory.run (prepare store settings context prompt) = (.error failure, asked))
    (dryRun : Bool) :
    memory.run (generate store settings context prompt dryRun) =
      ((.error failure, store), asked) := by
  rw [generate_eq, Memory.run_andThen, h]
  rfl

/-- A dry run shows the case if there is a test file, and the document
otherwise. -/
theorem run_generate_dryRun {plan : Plan} {resolved : ResolvedOutput} {asked : Memory}
    (h : memory.run (prepare store settings context prompt) = (.ok (plan, resolved), asked)) :
    memory.run (generate store settings context prompt true) =
      ((.ok ⟨testFileOf plan resolved, plan.caseName, none,
        if asked.tree.contains asked.current (testFileOf plan resolved) then plan.caseText
        else plan.document, resolved.firstTime⟩, store), asked) := by
  rw [generate_eq, Memory.run_andThen, h]
  rfl

theorem run_generate_carryOut {plan : Plan} {resolved : ResolvedOutput} {asked : Memory}
    (h : memory.run (prepare store settings context prompt) = (.ok (plan, resolved), asked)) :
    memory.run (generate store settings context prompt false) =
      asked.run (carryOut store plan resolved (testFileOf plan resolved)) := by
  rw [generate_eq, Memory.run_andThen, h]
  rfl

/-! ## What a generation does that was shown -/

/-- What is in a test file after a case: what was shown if there was no file,
and the file with that in it otherwise. -/
inductive Delivers (memory after : Memory) (testFile content : String) : WriteOutcome → Prop where
  | created (written : HasFile after testFile content.toUTF8) :
      Delivers memory after testFile content .created
  | appended {front text : String} (found : HasFile memory testFile front.toUTF8)
      (inserted : TestFile.insertCase front.toList content.toList = .ok text.toList)
      (written : HasFile after testFile text.toUTF8) :
      Delivers memory after testFile content .appended

variable {path document caseName caseText : String} {outcome : WriteOutcome}

theorem Delivers.of_sameFiles {asked : Memory} {content : String} (hsame : SameFiles memory asked)
    (h : Delivers asked after path content outcome) : Delivers memory after path content outcome := by
  cases h with
  | created written => exact .created written
  | appended found inserted written =>
    exact .appended (hsame.hasFile_iff.1 found) inserted written

theorem Delivers.later {last : Memory} {content : String} {changed opened : List String}
    (h : Delivers memory after path content outcome) (hframes : Frames changed opened after last)
    (hapart : ∀ other ∈ changed, ∀ place, Leads last path place → ¬ Leads last other place) :
    Delivers memory last path content outcome := by
  cases h with
  | created written => exact .created (hframes.hasFile written hapart)
  | appended found inserted written =>
    exact .appended found inserted (hframes.hasFile written hapart)

/-- Whether there is a test file is the same before the lock, in a directory
that is there, and under it. -/
theorem Writes.delivers (hwell : memory.tree.WellFormed)
    (hlocks : memory.tree.isDirectoryAt memory.current store.lockDir = true)
    (hapart : ∀ place, Leads memory (StatePaths.lockFile store.lockDir path) place →
      ¬ Leads memory path place)
    (h : Writes CarriesOut store path document caseName caseText memory (.ok outcome) after) :
    outcome = (if memory.tree.contains memory.current path then .appended else .created) ∧
      Delivers memory after path
        (if memory.tree.contains memory.current path then caseText else document) outcome := by
  have hreleased {last : Memory} {ticket : Nat} {content : ByteArray}
      (hrelease : CarriesOut last (.release ticket) () after) (hfile : HasFile last path content) :
      HasFile after path content :=
    (Memory.frames_of_isQuiet (Memory.carriesOut_refines _ _ _ _ hrelease) trivial).hasFile hfile
      (by simp)
  generalize hresult : (Except.ok outcome : Except Failure WriteOutcome) = result at h
  cases h with
  | refused hlock => cases hresult
  | @creates locked looked last _ ticket written hlock hlook hwrite hrelease =>
    obtain ⟨hfound, rfl⟩ := Prod.mk.inj hlook
    have hadds := Memory.addsLock_acquire hlocks (runs_carriesOut.1 hlock)
    rw [hadds.contains hwell hapart] at hfound
    rw [← hfound]
    rcases Memory.runs_replace (hwrite.mono Memory.carriesOut_refines) with
      ⟨rfl, hfile, -⟩ | ⟨failure, rfl, -⟩
    · cases hresult
      exact ⟨rfl, .created (hreleased hrelease hfile)⟩
    · cases hresult
  | @appends locked looked last _ ticket written hlock hlook hwrite hrelease =>
    obtain ⟨hfound, rfl⟩ := Prod.mk.inj hlook
    have hadds := Memory.addsLock_acquire hlocks (runs_carriesOut.1 hlock)
    rw [hadds.contains hwell hapart] at hfound
    rw [← hfound]
    rcases runs_appendCase (hwrite.mono Memory.carriesOut_refines) with
      ⟨failure, rfl, -⟩ | ⟨front, text, rfl, hread, hinsert, hfile, -⟩
    · cases hresult
    · cases hresult
      have hfront := Memory.hasFile_of_read (hadds.frames.changes.wellFormed hwell) hread
      exact ⟨rfl, .appended (hadds.hasFile_before hapart hfront) hinsert
        (hreleased hrelease hfile)⟩

/-- A generation that is carried out does what the plan says for a test file
that exists, or for one that does not. -/
theorem carryOut_delivers {plan : Plan} {resolved : ResolvedOutput} {done : Generated}
    (hwell : memory.tree.WellFormed)
    (hlocks : memory.tree.isDirectoryAt memory.current store.lockDir = true)
    (hapart : ∀ place, Leads memory (StatePaths.lockFile store.lockDir path) place →
      ¬ Leads memory path place)
    (hrun : memory.run (carryOut store plan resolved path) = ((.ok done, store'), after)) :
    let found := memory.tree.contains memory.current path
    let content := if found then plan.caseText else plan.document
    ∃ outcome, outcome = (if found then .appended else .created) ∧
      done = ⟨path, plan.caseName, some outcome, content, resolved.firstTime⟩ ∧
      ((∀ other ∈ store.savePaths memory.processId, ∀ place, Leads after path place →
        ¬ Leads after other place) → Delivers memory after path content outcome) := by
  intro found content
  obtain ⟨reply, written, hwrite, hrest⟩ := runs_andThen.1 (runs_carriesOut.2 hrun)
  cases reply with
  | error failure => cases (runs_done.1 hrest).1
  | ok outcome =>
    obtain ⟨⟨committed, last⟩, saved, hcommit, hend⟩ := runs_andThen.1 hrest
    cases committed with
    | error failure => cases (runs_done.1 hend).1
    | ok saved' =>
      obtain ⟨hresult, rfl⟩ := runs_done.1 hend
      obtain ⟨houtcome, hdelivers⟩ := (runs_writeCase_cases hwrite).delivers hwell hlocks hapart
      have hsaved := frames_commit (hcommit.mono Memory.carriesOut_refines)
      have hprocess : written.processId = memory.processId := by
        have hchanges := Memory.changes_run
          (store.writeCase path plan.document plan.caseName plan.caseText) memory
        rw [runs_carriesOut.1 hwrite] at hchanges
        exact hchanges.processId
      rw [hprocess] at hsaved
      refine ⟨outcome, houtcome, ?_, hdelivers.later hsaved⟩
      cases hresult
      subst houtcome
      cases hfound : found <;> simp [found, content, hfound]

/-! ## What a dry run foretells -/

/-- Whether a generation did what a dry run showed in a system. -/
structure Fulfils (memory : Memory) (shown done : Generated) : Prop where
  testFile : done.testFile = shown.testFile
  caseName : done.caseName = shown.caseName
  content : done.content = shown.content
  firstTime : done.firstTime = shown.firstTime
  /-- A file is created exactly where none was. -/
  outcome : done.outcome = some
    (if memory.tree.contains memory.current shown.testFile then .appended else .created)

/-- A dry run leaves every file and the store as they are.  If it fails, then
so does the generation that is run instead, in the same way.  If both succeed,
the generation does what the dry run showed, and the test file has it
afterwards, unless the preferences are saved over the test file. -/
theorem dryRun_predicts {result : Except Failure Generated} (hwell : memory.tree.WellFormed)
    (h : memory.run (generate store settings context prompt true) = ((result, store'), after)) :
    store' = store ∧ after.tree = memory.tree ∧
    (∀ failure, result = .error failure →
      memory.run (generate store settings context prompt false) =
        ((.error failure, store), after)) ∧
    ∀ shown done saved last, result = .ok shown →
      memory.run (generate store settings context prompt false) = ((.ok done, saved), last) →
      memory.tree.isDirectoryAt memory.current store.lockDir = true →
      (∀ place, Leads memory (StatePaths.lockFile store.lockDir shown.testFile) place →
        ¬ Leads memory shown.testFile place) →
      Fulfils memory shown done ∧
      ((∀ path ∈ store.savePaths memory.processId, ∀ place, Leads last shown.testFile place →
        ¬ Leads last path place) →
        ∃ outcome, done.outcome = some outcome ∧
          Delivers memory last shown.testFile shown.content outcome) := by
  have hsame := sameFiles_prepare store settings context prompt memory
  cases hprepare : memory.run (prepare store settings context prompt) with
  | mk prepared asked =>
    rw [hprepare] at hsame
    cases prepared with
    | error failure =>
      rw [run_generate_refused hprepare] at h
      cases h
      refine ⟨rfl, hsame.tree, ?_, fun shown done saved last hok => nomatch hok⟩
      rintro _ ⟨⟩
      exact run_generate_refused hprepare false
    | ok prepared =>
      obtain ⟨plan, resolved⟩ := prepared
      rw [run_generate_dryRun hprepare] at h
      cases h
      refine ⟨rfl, hsame.tree, fun failure hfailed => (nomatch hfailed), ?_⟩
      intro shown done saved last hshown hdone hlocks hapart
      cases hshown
      rw [run_generate_carryOut hprepare] at hdone
      rw [← hsame.tree] at hwell hlocks
      rw [← hsame.current] at hlocks
      simp only [← hsame.leads_iff] at hapart
      obtain ⟨outcome, houtcome, rfl, hdelivers⟩ := carryOut_delivers hwell hlocks hapart hdone
      rw [hsame.processId] at hdelivers
      refine ⟨⟨rfl, rfl, rfl, rfl, ?_⟩, fun hpreferences =>
        ⟨outcome, rfl, (hdelivers hpreferences).of_sameFiles hsame⟩⟩
      show some outcome = _
      rw [houtcome, hsame.tree, hsame.current]

/-- A system with an empty test file and a directory for lock files. -/
def previewMemory : Memory where
  tree := ⟨[(["locks"], .directory), (["src"], .directory),
    (["src", "JobTest.cpp"], .file "namespace unittest \x7b\n\x7d\n".toUTF8)]⟩

theorem wellFormed_previewMemory : previewMemory.tree.WellFormed :=
  Tree.wellFormed_of_all rfl

/-- A store in memory. -/
def previewStore : TestStore where
  preferences := .memory {}
  lockDir := "/locks"

/-- A generation for that test file. -/
def previewRun (dryRun : Bool) : (Except Failure Generated × TestStore) × Memory :=
  previewMemory.run
    (generate previewStore {} ⟨some "/src/Job.cpp", .text "void Run();"⟩ .declined dryRun)

/-- The case that is added to that test file is the one that was shown. -/
theorem dryRun_predicts_preview :
    ∃ shown done saved after last, previewRun true = ((.ok shown, previewStore), after) ∧
      previewRun false = ((.ok done, saved), last) ∧ Fulfils previewMemory shown done ∧
      ∃ outcome, done.outcome = some outcome ∧
        Delivers previewMemory last shown.testFile shown.content outcome := by
  have hok : (previewRun true).1.1.toOption.map Generated.testFile = some "/src/JobTest.cpp" ∧
      (previewRun false).1.1.toBool = true := by
    decide +kernel
  obtain ⟨hshown, hdone⟩ := hok
  cases hdry : previewRun true with
  | mk first after =>
    obtain ⟨result, store⟩ := first
    obtain ⟨rfl, -, -, hpredicts⟩ := dryRun_predicts wellFormed_previewMemory hdry
    rw [hdry] at hshown
    cases result with
    | error failure => cases hshown
    | ok shown =>
      have htestFile : shown.testFile = "/src/JobTest.cpp" := Option.some.inj hshown
      cases hrun : previewRun false with
      | mk second last =>
        obtain ⟨result, saved⟩ := second
        rw [hrun] at hdone
        cases result with
        | error failure => cases hdone
        | ok done =>
          have hapart : ∀ place, Leads previewMemory
              (StatePaths.lockFile previewStore.lockDir shown.testFile) place →
              ¬ Leads previewMemory shown.testFile place := by
            rw [htestFile]
            exact fun place => (Memory.KeepsApart.of_lastName? (by decide +kernel)).not_leads
          obtain ⟨hfulfils, hdelivers⟩ :=
            hpredicts shown done saved last rfl hrun (by decide +kernel) hapart
          exact ⟨shown, done, saved, after, last, rfl, rfl, hfulfils,
            hdelivers fun path hpath => nomatch hpath⟩

/-! ## A test file in the way of the preferences -/

/-- A system that is ready for a store on `/p`. -/
def shadowedMemory : Memory where
  tree := ⟨[(["locks"], .directory)]⟩

/-- A store on that file. -/
def shadowedStore : TestStore where
  preferences := .file { path := "/p", timeoutMs := 0 }
  lockDir := StatePaths.lockDir "/p"

/-- Settings with which a test file is named like a temporary file. -/
def shadowedSettings : Settings where
  naming := { sourceExtension := "tmp", testSuffix := ".1" }

/-- A generation for a test file with the name of the temporary file through
which the preferences are saved. -/
def shadowedRun (dryRun : Bool) : (Except Failure Generated × TestStore) × Memory :=
  shadowedMemory.run
    (generate shadowedStore shadowedSettings ⟨some "/.p.tmp", .text "void Run();"⟩ .declined dryRun)

/-- Whether both runs succeed, the second one creates the file that the first
one showed, and that file is gone at the end. -/
def isMovedAway (path : String) (dry run : (Except Failure Generated × TestStore) × Memory) :
    Bool :=
  match dry, run with
  | ((.ok shown, _), _), ((.ok done, _), last) =>
    shown.testFile == path && done.outcome == some .created &&
      !(last.tree.read last.current path).toBool
  | _, _ => false

theorem isMovedAway_shadowedRun :
    isMovedAway (temporaryName "/p" 1) (shadowedRun true) (shadowedRun false) = true := by
  decide +kernel

/-- The preferences are written over the test file, which is not the lock
file, and moved to their own.  The document that was shown and created is
lost. -/
theorem not_delivers_shadowedRun :
    shadowedSettings.fault? = none ∧
    shadowedMemory.tree.isDirectoryAt shadowedMemory.current shadowedStore.lockDir = true ∧
    ∃ shown done store saved after last, shadowedRun true = ((.ok shown, store), after) ∧
      shadowedRun false = ((.ok done, saved), last) ∧ done.outcome = some .created ∧
      (∀ place, Leads shadowedMemory (StatePaths.lockFile shadowedStore.lockDir shown.testFile) place →
        ¬ Leads shadowedMemory shown.testFile place) ∧
      ¬ HasFile last shown.testFile shown.content.toUTF8 := by
  refine ⟨by decide +kernel, by decide +kernel, ?_⟩
  have hmoved := isMovedAway_shadowedRun
  cases hdry : shadowedRun true with
  | mk first after =>
    obtain ⟨result, store⟩ := first
    cases hrun : shadowedRun false with
    | mk second last =>
      obtain ⟨result', saved⟩ := second
      rw [hdry, hrun] at hmoved
      cases result with
      | error failure => cases hmoved
      | ok shown =>
        cases result' with
        | error failure => cases hmoved
        | ok done =>
          simp only [isMovedAway, Bool.and_eq_true, beq_iff_eq] at hmoved
          obtain ⟨⟨htestFile, houtcome⟩, hgone⟩ := hmoved
          refine ⟨shown, done, store, saved, after, last, rfl, rfl, houtcome, ?_, ?_⟩
          · rw [htestFile]
            exact fun place => (Memory.KeepsApart.of_lastName? (by decide +kernel)).not_leads
          · rw [htestFile]
            intro hfile
            rw [hfile.read] at hgone
            cases hgone

end TestSkeleton.Generation
