import TestSkeleton.Proofs.Files.Tidying
import TestSkeleton.Proofs.Generation.Failing

/-!
# A case is written completely or not at all

A case is written in many steps: the directory of the lock file, the lock, a
look whether the test file exists, a read of it, the temporary file and the
rename.  Any of them may fail.

* `CaseEnds` is what a written case, and one that could not be written, leave
  of every file.
* `Rejects` says that a file takes no case, and `Prevented` that a step up to
  the file failed.
* `runs_writeCase_allOrNothing` puts these together, whatever fails.  One
  failure does not end a run: a look that fails is taken for a file that is
  missing.  So what it says about a new file is said where the system is
  `Discerning`.
* `writeCase_overwrites_timesOut` has a run in which a look fails, and a run
  without a lock.
-/

namespace TestSkeleton.Generation

open Files
open Files.Action (Runs runs_done runs_step runs_andThen)
open Memory (Attempts Frames Leads HasFile KeepsApart)

variable {serves : Behaviour} {store : TestStore}
  {memory after : Memory} {path document caseName caseText : String} {content : ByteArray}

theorem tree_of_release {ticket : Nat} (h : Attempts memory (.release ticket) () after) :
    after.tree = memory.tree ∧ after.current = memory.current := by
  rcases h with hserve | hmisses | ⟨-, hdeparts⟩
  · rw [show after = memory.release ticket from congrArg Prod.snd hserve]
    exact ⟨rfl, rfl⟩
  · exact hmisses.elim
  · exact hdeparts.elim

/-! ## What is left of the files -/

/-- How writing a case ends. -/
inductive CaseEnds (serves : Behaviour) (store : TestStore) (path document caseText : String)
    (memory after : Memory) : Except Failure WriteOutcome → Prop where
  /-- Every file is as it was, and the test file even if it is the lock
  file. -/
  | failed {failure : Failure}
      (target : ∀ content, HasFile memory path content → HasFile after path content)
      (spares : Spares [temporaryName path memory.processId,
        StatePaths.lockFile store.lockDir path] memory after) :
      CaseEnds serves store path document caseText memory after (.error failure)
  /-- Nothing was there, unless the look for it failed, and the new document
  is. -/
  | created
      (absent : Discerning serves →
        ∀ place, Leads after path place → memory.tree.node? place = none)
      (written : HasFile after path document.toUTF8)
      (tidy : ∀ place, Leads after (temporaryName path memory.processId) place →
        after.tree.node? place = none)
      (spares : Spares [path, temporaryName path memory.processId,
        StatePaths.lockFile store.lockDir path] memory after) :
      CaseEnds serves store path document caseText memory after (.ok .created)
  /-- A text was there, and is with the case in it. -/
  | appended {front text : String}
      (found : HasFile memory path front.toUTF8)
      (inserted : TestFile.insertCase front.toList caseText.toList = .ok text.toList)
      (written : HasFile after path text.toUTF8)
      (tidy : ∀ place, Leads after (temporaryName path memory.processId) place →
        after.tree.node? place = none)
      (spares : Spares [path, temporaryName path memory.processId,
        StatePaths.lockFile store.lockDir path] memory after) :
      CaseEnds serves store path document caseText memory after (.ok .appended)

/-- The lock and the look at the test file change no more than the lock
file. -/
theorem frames_look {locked looked : Memory} {reply : Except Failure Nat} {found : Bool}
    {timeoutMs : Nat} {lockPath : String} (hserves : Refines serves Attempts)
    (hlock : Runs serves memory (acquire lockPath .exclusive timeoutMs) reply locked)
    (hlook : serves locked (.exists path) found looked) : Frames [] [lockPath] memory looked :=
  (Memory.frames_acquire (hlock.mono hserves)).trans
    ((Memory.frames_of_isQuiet (hserves _ _ _ _ hlook) trivial).mono (by simp) (by simp))

/-- Writing a case ends before a file is replaced, or with the release of the
lock after it. -/
theorem Writes.replaces {result : Except Failure WriteOutcome} (hserves : Refines serves Attempts)
    (h : Writes serves store path document caseName caseText memory result after) :
    (∃ failure, result = .error failure ∧
      Frames [] [StatePaths.lockFile store.lockDir path] memory after) ∨
    ∃ looked last content ticket written, ∃ outcome : WriteOutcome,
      Frames [] [StatePaths.lockFile store.lockDir path] memory looked ∧
      Memory.Replaces serves path (temporaryName path memory.processId) content looked written last ∧
      Attempts last (.release ticket) () after ∧ result = written.map fun () => outcome := by
  have hreplaces {before last : Memory} {content : ByteArray} {written : Except Failure Unit}
      (hbefore : Frames [] [StatePaths.lockFile store.lockDir path] memory before)
      (hreplace : Runs serves before (replace path content) written last) :
      Memory.Replaces serves path (temporaryName path memory.processId) content before written
        last := by
    have hcases := Memory.runs_replace_cases hserves hreplace
    rw [hbefore.changes.processId] at hcases
    exact hcases
  cases h with
  | refused hlock => exact Or.inl ⟨_, rfl, Memory.frames_acquire (hlock.mono hserves)⟩
  | creates hlock hlook hwrite hrelease =>
    have hlooked := frames_look hserves hlock hlook
    exact Or.inr ⟨_, _, _, _, _, .created, hlooked, hreplaces hlooked hwrite,
      hserves _ _ _ _ hrelease, rfl⟩
  | appends hlock hlook hwrite hrelease =>
    have hlooked := frames_look hserves hlock hlook
    have hrelease := hserves _ _ _ _ hrelease
    have hreleased := Memory.frames_of_isQuiet hrelease trivial
    cases runs_appendCase_cases hserves hwrite with
    | unread hread =>
      have hunchanged := Frames.of_isQuiet (isQuiet_readText path) (hread.mono hserves)
      exact Or.inl ⟨_, rfl,
        hlooked.trans ((hunchanged.trans hreleased).mono (by simp) (by simp))⟩
    | malformed hread hunchanged hinsert =>
      exact Or.inl ⟨_, rfl,
        hlooked.trans ((hunchanged.trans hreleased).mono (by simp) (by simp))⟩
    | written hread hwarned hinsert hreplace =>
      have hbefore := hlooked.trans (hwarned.mono (by simp) (by simp))
      exact Or.inr ⟨_, _, _, _, _, .appended, hbefore, hreplaces hbefore hreplace, hrelease, rfl⟩

/-- Nothing has the temporary name once a case is written. -/
theorem Writes.free {outcome : WriteOutcome} (hserves : Refines serves Attempts)
    (h : Writes serves store path document caseName caseText memory (.ok outcome) after)
    {place : Place} (hleads : Leads after (temporaryName path memory.processId) place) :
    after.tree.node? place = none := by
  rcases h.replaces hserves with ⟨failure, hfailed, -⟩ |
    ⟨looked, last, content, ticket, written, outcome', -, hreplaces, hrelease, hresult⟩
  · cases hfailed
  · cases written with
    | error failure => cases hresult
    | ok done =>
      obtain ⟨htree, hcurrent⟩ := tree_of_release hrelease
      rw [Leads, htree, hcurrent] at hleads
      rw [htree]
      exact hreplaces.free hserves hleads

/-- A case that could not be written leaves no temporary file behind, unless
one was there before or it cannot be removed. -/
theorem Writes.tidy {failure : Failure} (hserves : Refines serves Attempts)
    (hremoves : Removes serves) (hwell : memory.tree.WellFormed) (hup : Path.IsDirect path)
    (h : Writes serves store path document caseName caseText memory (.error failure) after)
    (hbefore : ∀ content, ¬ HasFile memory (temporaryName path memory.processId) content)
    (content : ByteArray) : ¬ HasFile after (temporaryName path memory.processId) content := by
  -- a run that does not write the temporary file cannot have made it
  have hunmade {reached : Memory}
      (hreached : Frames [] [StatePaths.lockFile store.lockDir path] memory reached) :
      ¬ HasFile reached (temporaryName path memory.processId) content := by
    refine fun hfile => hbefore content
      (hreached.hasFile_before hwell (isDirect_temporaryName hup _) ?_ hfile)
    simp only [List.nil_append, List.forall_mem_singleton]
    exact (KeepsApart.lockFile_temporary store.lockDir path path memory.processId).symm
  rcases h.replaces hserves with ⟨failure, -, hframes⟩ |
    ⟨looked, last, content', ticket, written, outcome, hframes, hreplaces, hrelease, hresult⟩
  · exact hunmade hframes
  · cases written with
    | ok done => cases hresult
    | error reason =>
      obtain ⟨htree, hcurrent⟩ := tree_of_release hrelease
      rw [HasFile, htree, hcurrent]
      rcases hreplaces.tidy hremoves with hunchanged | hgone
      · exact hunmade (hframes.trans (hunchanged.mono (by simp) (by simp)))
      · exact hgone content

/-- A new document is written only where nothing was, if a look tells. -/
theorem Decides.absent {text : String} (hwell : memory.tree.WellFormed) (hup : Path.IsDirect path)
    (h : Decides serves store path document caseText memory after .created text)
    (hdiscerning : Discerning serves) {place : Place} (hleads : Leads after path place) :
    memory.tree.node? place = none := by
  cases h.madeFrom hwell hleads with
  | created hfree => exact (hfree hdiscerning).resolve_right fun hwentUp => hup hwentUp.1

/-- A case is added to a text that was there before the lock was taken. -/
theorem Decides.found {text : String} (hwell : memory.tree.WellFormed) (hup : Path.IsDirect path)
    (h : Decides serves store path document caseText memory after .appended text)
    (hfile : HasFile after path content) :
    ∃ front : String, HasFile memory path front.toUTF8 ∧
      TestFile.insertCase front.toList caseText.toList = .ok text.toList := by
  obtain ⟨parent, name, hleads, -⟩ := hfile
  cases h.madeFrom hwell ⟨parent, name, hleads, rfl⟩ with
  | @appended front _ hfound hinsert =>
    rw [h.frames.changes.current] at hleads
    have hleads' := hwell.leadsTo_of_node hleads hup (by rw [hfound]; rfl)
    exact ⟨front, ⟨parent, name, hleads', hfound⟩, hinsert⟩

theorem caseEnds_of_runs {result : Except Failure WriteOutcome}
    (hserves : Refines serves Attempts) (hwell : memory.tree.WellFormed)
    (hup : Path.IsDirect path)
    (h : Runs serves memory (store.writeCase path document caseName caseText) result after) :
    CaseEnds serves store path document caseText memory after result := by
  have hwrites := runs_writeCase_cases h
  rcases runs_writeCase hserves h with ⟨failure, rfl, hframes⟩ |
    ⟨outcome, text, rfl, hdecides, hfile⟩
  · refine .failed (fun content hbefore => hframes.hasFile hbefore ?_) (spares_of_frames hframes)
    simp only [List.forall_mem_singleton]
    exact fun place => (KeepsApart.temporary path memory.processId).not_leads
  · have hspares := spares_of_frames hdecides.frames
    have hfree : ∀ place, Leads after (temporaryName path memory.processId) place →
        after.tree.node? place = none := fun place => hwrites.free hserves
    cases outcome with
    | created =>
      have habsent : Discerning serves →
          ∀ place, Leads after path place → memory.tree.node? place = none :=
        fun hdiscerning place => hdecides.absent hwell hup hdiscerning
      cases hdecides with
      | created => exact .created habsent hfile hfree hspares
    | appended =>
      obtain ⟨front, hfound, hinsert⟩ := hdecides.found hwell hup hfile
      exact .appended hfound hinsert hfile hfree hspares

/-! ## Files that take no case -/

/-- Whether what a file holds takes no case, and how that is reported. -/
inductive Rejects (path : String) (content : ByteArray) : Failure → Prop where
  | notText (hcontent : String.fromUTF8? content = none) :
      Rejects path content (.fileRead path .notText)
  | malformed {text : String} {malformed : TestFile.Malformed} (hcontent : content = text.toUTF8)
      (hpoint : TestFile.insertionPoint text.toList = .error malformed) :
      Rejects path content (.malformedTestFile path malformed.reason)

/-- How writing a case fails before it is known whether the file at its path
takes it: there is no lock, the file that is there cannot be read, or it is not
found and cannot be replaced. -/
inductive Prevented (serves : Behaviour) (store : TestStore) (path : String) (memory : Memory) :
    Failure → Prop where
  | locking {locked : Memory} {failure : Failure}
      (hlock : Runs serves memory (acquire (StatePaths.lockFile store.lockDir path) .exclusive
        store.timeoutMs) (.error failure) locked) :
      Prevented serves store path memory failure
  | looking {locked looked : Memory} {content : ByteArray} {fault : Fault}
      (hfile : HasFile locked path content) (hlook : serves locked (.exists path) false looked) :
      Prevented serves store path memory (.fileWrite path fault)
  | reading {looked read : Memory} {content : ByteArray} {fault : Fault}
      (hfile : HasFile looked path content)
      (hread : serves looked (.read path) (Except.error fault) read) :
      Prevented serves store path memory (.fileRead path fault)

theorem Rejects.insertCase {failure : Failure} {text : String} {caseText : List Char}
    (h : Rejects path text.toUTF8 failure) :
    ∃ malformed, TestFile.insertCase text.toList caseText = .error malformed ∧
      failure = .malformedTestFile path malformed.reason := by
  generalize hcontent : text.toUTF8 = content at h
  cases h with
  | notText hnone =>
    rw [← hcontent, Text.fromUTF8?_toUTF8] at hnone
    cases hnone
  | @malformed other malformed hother hpoint =>
    obtain rfl : text = other := String.toByteArray_inj.1 (hcontent.trans hother)
    exact ⟨malformed, by rw [TestFile.insertCase, hpoint]; rfl, rfl⟩

theorem Rejects.eq_notText {failure : Failure} (h : Rejects path content failure)
    (hnone : String.fromUTF8? content = none) : failure = .fileRead path .notText := by
  cases h with
  | notText => rfl
  | malformed hcontent hpoint =>
    rw [hcontent, Text.fromUTF8?_toUTF8] at hnone
    cases hnone

/-- A text that could not be read is not readable, or its bytes are no
text. -/
theorem runs_readText_error {fault : Fault} (hserves : Refines serves Attempts)
    (h : Runs serves memory (Action.readText path) (.error fault) after) :
    (∃ read, serves memory (.read path) (Except.error fault) read) ∨
    ∃ content, memory.tree.read memory.current path = .ok content ∧
      String.fromUTF8? content = none ∧ fault = .notText := by
  rw [Action.readText, Action.bind_eq, runs_andThen] at h
  obtain ⟨reply, between, hread, hrest⟩ := h
  obtain ⟨answer, system, hanswer, hdone⟩ := runs_step.1 hread
  obtain ⟨rfl, rfl⟩ := runs_done.1 hdone
  cases reply with
  | error found =>
    obtain ⟨hresult, -⟩ := runs_done.1 hrest
    cases hresult
    exact Or.inl ⟨between, hanswer⟩
  | ok content =>
    simp only at hrest
    split at hrest
    · cases (runs_done.1 hrest).1
    · rename_i hnone
      obtain ⟨hresult, -⟩ := runs_done.1 hrest
      cases hresult
      have hserved := (hserves _ _ _ _ hanswer).serves (by
        rintro ⟨_, hfault, -⟩
        cases hfault)
      exact Or.inr ⟨content, hserved.read_eq.1.symm, hnone, rfl⟩

/-- A case is never added to a file that takes none.  Such a file is replaced
only if it is not found. -/
theorem Writes.rejected {result : Except Failure WriteOutcome} {reason : Failure}
    (hserves : Refines serves Attempts)
    (h : Writes serves store path document caseName caseText memory result after)
    (hfile : HasFile memory path content) (hrejects : Rejects path content reason) :
    (∃ failure, result = .error failure ∧
      (failure = reason ∨ Prevented serves store path memory failure)) ∨
    result = .ok .created ∧ ¬ Discerning serves := by
  cases h with
  | refused hlock => exact Or.inl ⟨_, rfl, Or.inr (.locking hlock)⟩
  | @creates locked looked last _ ticket written hlock hlook hwrite hrelease =>
    have hlocked := (Memory.frames_acquire (hlock.mono hserves)).hasFile hfile (by simp)
    cases Memory.runs_replace_cases hserves hwrite with
    | moved hmade hwritten hrename =>
      refine Or.inr ⟨rfl, fun hdiscerning => ?_⟩
      have hcontains := hdiscerning.contains_eq hlook (.moved hmade hwritten hrename)
      obtain ⟨parent, name, hleads, hnode⟩ := hlocked
      rw [Tree.contains, hleads.locate (by rw [hnode]; rfl)] at hcontains
      cases hcontains
    | unmade => exact Or.inl ⟨_, rfl, Or.inr (.looking hlocked hlook)⟩
    | unwritten => exact Or.inl ⟨_, rfl, Or.inr (.looking hlocked hlook)⟩
    | unmoved => exact Or.inl ⟨_, rfl, Or.inr (.looking hlocked hlook)⟩
  | @appends locked looked last _ ticket written hlock hlook hwrite hrelease =>
    have hfound := (frames_look hserves hlock hlook).hasFile hfile (by simp)
    have hsame {found : ByteArray} (hread : looked.tree.read looked.current path = .ok found) :
        found = content := Except.ok.inj (hread.symm.trans hfound.read)
    refine Or.inl ?_
    cases runs_appendCase_cases hserves hwrite with
    | unread hread =>
      rcases runs_readText_error hserves hread with
        ⟨read, hfault⟩ | ⟨found, hbytes, hnone, rfl⟩
      · exact ⟨_, rfl, Or.inr (.reading hfound hfault)⟩
      · rw [hsame hbytes] at hnone
        rw [hrejects.eq_notText hnone]
        exact ⟨_, rfl, Or.inl rfl⟩
    | malformed hread hunchanged hinsert =>
      rw [← hsame hread] at hrejects
      obtain ⟨malformed, hinsert', rfl⟩ := hrejects.insertCase
      rw [hinsert, Except.error.injEq] at hinsert'
      rw [hinsert']
      exact ⟨_, rfl, Or.inl rfl⟩
    | written hread hwarned hinsert hreplace =>
      rw [← hsame hread] at hrejects
      obtain ⟨malformed, hinsert', -⟩ := hrejects.insertCase
      rw [hinsert] at hinsert'
      cases hinsert'

/-! ## All or nothing -/

/-- A case is written completely or not at all, whichever request fails.

A case that could not be written leaves every file as it was, and no temporary
file behind if that can be removed.  A written case is in the text that was
there, or made a file, and no other file changed.  To a file that is no text,
or has no place for a case, no case is added, and that is what the failure says
unless an earlier step failed.

A file is made where nothing was, and a file that takes no case is kept, if a
look for the file tells whether it is there.  That is asked of the behaviour,
which may be no more than what became of the requests of this run. -/
theorem runs_writeCase_allOrNothing {result : Except Failure WriteOutcome}
    (hserves : Refines serves Attempts) (hwell : memory.tree.WellFormed)
    (hup : ".." ∉ Path.steps path)
    (h : Runs serves memory (store.writeCase path document caseName caseText) result after) :
    CaseEnds serves store path document caseText memory after result ∧
    (∀ failure, result = .error failure → Removes serves →
      (∀ content, ¬ HasFile memory (temporaryName path memory.processId) content) →
      ∀ content, ¬ HasFile after (temporaryName path memory.processId) content) ∧
    ∀ content reason, HasFile memory path content → Rejects path content reason →
      (HasFile after path content ∧ ∃ failure, result = .error failure ∧
        (failure = reason ∨ Prevented serves store path memory failure)) ∨
      result = .ok .created ∧ ¬ Discerning serves := by
  have hwrites := runs_writeCase_cases h
  have hends := caseEnds_of_runs hserves hwell hup h
  refine ⟨hends, ?_, ?_⟩
  · rintro failure rfl hremoves hbefore
    exact hwrites.tidy hserves hremoves hwell hup hbefore
  · intro content reason hfile hrejects
    refine (hwrites.rejected hserves hfile hrejects).imp_left ?_
    rintro ⟨failure, rfl, hfailure⟩
    cases hends with
    | failed target spares => exact ⟨target content hfile, failure, rfl, hfailure⟩

/-- A test file whose block is not closed. -/
def unclosedText : String := "namespace unittest \x7b\n"

/-- A system with that test file. -/
def unclosedMemory : Memory where
  tree := ⟨[(["src"], .directory), (["src", "JobTest.cpp"], .file unclosedText.toUTF8)]⟩

/-- A store that knows nothing. -/
def unclosedStore : TestStore where
  preferences := .memory {}
  lockDir := "/locks"

theorem removes_carriesOut : Removes CarriesOut :=
  fun _ _ _ _ h => h

theorem wellFormed_unclosedMemory : unclosedMemory.tree.WellFormed :=
  Tree.wellFormed_of_all rfl

theorem hasFile_unclosedMemory :
    HasFile unclosedMemory "/src/JobTest.cpp" unclosedText.toUTF8 := by
  have hread : unclosedMemory.tree.read unclosedMemory.current "/src/JobTest.cpp" =
      .ok unclosedText.toUTF8 := by
    have hlocate : (unclosedMemory.tree.locate unclosedMemory.current "/src/JobTest.cpp").toOption =
        some ["src", "JobTest.cpp"] := by
      decide +kernel
    exact Memory.read_of_locate (eq_ok_of_toOption hlocate) rfl
  exact Memory.hasFile_of_read wellFormed_unclosedMemory hread

theorem rejects_unclosedText : Rejects "/src/JobTest.cpp" unclosedText.toUTF8
    (.malformedTestFile "/src/JobTest.cpp" (TestFile.Malformed.leftOpen 1).reason) :=
  .malformed rfl (by rfl)

theorem not_hasFile_unclosedMemory (content : ByteArray) :
    ¬ HasFile unclosedMemory (temporaryName "/src/JobTest.cpp" unclosedMemory.processId)
      content := by
  intro hfile
  have hread : (unclosedMemory.tree.read unclosedMemory.current
      (temporaryName "/src/JobTest.cpp" unclosedMemory.processId)).toBool = false := by
    decide +kernel
  rw [hfile.read] at hread
  cases hread

/-- A case is refused by that file, which keeps what it holds. -/
theorem runs_writeCase_allOrNothing_unclosed :
    ∃ failure after, Runs CarriesOut unclosedMemory
        (unclosedStore.writeCase "/src/JobTest.cpp" "document" "ShouldRun" "case")
        (.error failure) after ∧
      CaseEnds CarriesOut unclosedStore "/src/JobTest.cpp" "document" "case" unclosedMemory after
        (.error failure) ∧
      (∀ content, ¬ HasFile after (temporaryName "/src/JobTest.cpp" unclosedMemory.processId)
        content) ∧
      HasFile after "/src/JobTest.cpp" unclosedText.toUTF8 ∧
      (failure = .malformedTestFile "/src/JobTest.cpp" (TestFile.Malformed.leftOpen 1).reason ∨
        Prevented CarriesOut unclosedStore "/src/JobTest.cpp" unclosedMemory failure) := by
  have hruns : Runs CarriesOut unclosedMemory _ _ _ := Action.runs_run (fun _ _ => rfl)
    (unclosedStore.writeCase "/src/JobTest.cpp" "document" "ShouldRun" "case") unclosedMemory
  obtain ⟨hends, htidy, hrejected⟩ := runs_writeCase_allOrNothing Memory.carriesOut_refines
    wellFormed_unclosedMemory (by decide +kernel) hruns
  obtain ⟨hfile, failure, hfailed, hfailure⟩ :=
    (hrejected _ _ hasFile_unclosedMemory rejects_unclosedText).resolve_right
      fun hcreated => hcreated.2 (discerning_of_refines carriesOut_refines_sees)
  have hgone := htidy failure hfailed removes_carriesOut not_hasFile_unclosedMemory
  rw [hfailed] at hruns hends
  exact ⟨failure, _, hruns, hends, hgone, hfile, hfailure⟩

/-- What a system does in which every look for a file fails. -/
def blindServe (request : Request) (memory : Memory) : Reply request × Memory :=
  match request with
  | .exists _ => (false, memory)
  | request => memory.serve request

theorem attempts_blindServe (memory : Memory) (request : Request) :
    Attempts memory request (blindServe request memory).1 (blindServe request memory).2 := by
  cases request with
  | «exists» path => exact Or.inr (Or.inl ⟨rfl, rfl⟩)
  | _ => exact Memory.attempts_serve memory _

/-- The lock for that test file. -/
def unclosedLock : String :=
  StatePaths.lockFile "/locks" "/src/JobTest.cpp"

/-- The system while somebody holds that lock. -/
def lockedMemory : Memory where
  tree := ⟨unclosedMemory.tree.nodes ++
    [(["locks"], .directory), (Path.steps unclosedLock, .file .empty)]⟩
  holds := [⟨0, some (Path.steps unclosedLock), .exclusive⟩]
  nextTicket := 1

/-- Whether there was no lock in time. -/
def timesOut : Except Failure WriteOutcome → Bool
  | .error (.lockTimeout _) => true
  | _ => false

theorem eq_lockTimeout_of_timesOut {result : Except Failure WriteOutcome}
    (h : timesOut result = true) : ∃ lockPath, result = .error (.lockTimeout lockPath) := by
  cases result with
  | ok outcome => cases h
  | error failure =>
    cases failure with
    | lockTimeout lockPath => exact ⟨lockPath, rfl⟩
    | _ => cases h

/-- A case that the file does not take.  If only the look for the file fails, a
new document is written over it.  If only the lock is held by another, that is
the failure, and not that the file takes no case. -/
theorem writeCase_overwrites_timesOut :
    HasFile unclosedMemory "/src/JobTest.cpp" unclosedText.toUTF8 ∧
    Rejects "/src/JobTest.cpp" unclosedText.toUTF8
      (.malformedTestFile "/src/JobTest.cpp" (TestFile.Malformed.leftOpen 1).reason) ∧
    (∃ after, Runs Attempts unclosedMemory
        (unclosedStore.writeCase "/src/JobTest.cpp" "document" "ShouldRun" "case")
        (.ok .created) after ∧
      HasFile after "/src/JobTest.cpp" "document".toUTF8) ∧
    lockedMemory.tree.node? ["src", "JobTest.cpp"] = some (.file unclosedText.toUTF8) ∧
    ∃ lockPath after, Runs CarriesOut lockedMemory
      (unclosedStore.writeCase "/src/JobTest.cpp" "document" "ShouldRun" "case")
      (.error (.lockTimeout lockPath)) after := by
  have hblind := Action.runs_of_serve attempts_blindServe
    (unclosedStore.writeCase "/src/JobTest.cpp" "document" "ShouldRun" "case") unclosedMemory
  have hcreated : ((unclosedStore.writeCase "/src/JobTest.cpp" "document" "ShouldRun" "case").run
      blindServe unclosedMemory).1.toOption = some .created := by
    decide +kernel
  rw [eq_ok_of_toOption hcreated] at hblind
  have hends := caseEnds_of_runs (.refl _) wellFormed_unclosedMemory
    (show ".." ∉ Path.steps _ by decide +kernel) hblind
  have htimesOut : timesOut (lockedMemory.run
      (unclosedStore.writeCase "/src/JobTest.cpp" "document" "ShouldRun" "case")).1 = true := by
    decide +kernel
  obtain ⟨lockPath, hlockPath⟩ := eq_lockTimeout_of_timesOut htimesOut
  refine ⟨hasFile_unclosedMemory, rejects_unclosedText, ⟨_, hblind, ?_⟩, rfl, lockPath, _,
    runs_carriesOut.2 (Prod.ext hlockPath rfl)⟩
  cases hends with
  | created absent written => exact written

end TestSkeleton.Generation
