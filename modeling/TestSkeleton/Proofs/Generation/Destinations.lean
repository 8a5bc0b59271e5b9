import TestSkeleton.Generation.Destination
import TestSkeleton.Proofs.Generation.Directories
import TestSkeleton.Proofs.Generation.Previewing
import TestSkeleton.Proofs.Generation.Spellings

/-!
# What is said about a source file before it is worked on

Where the tests of a source file go can be asked without a generation.  The
answer is found in another way than the generation finds it: the name of the
test file is read off the path from the root and not off the path that was
given, and the preferences are looked into a second time for the reason.

* `testFileOf_absoluteSource` says that both paths give one name.
* `resolve_declined` is the directory that both use when nobody is asked.
* `Foretells` is what an answer says about a dry run, and
  `destination_foretells` that every answer says so.
-/

namespace TestSkeleton.Generation

open Files
open Files.Action (Runs)
open Memory (pathOf)
open Preferences.Outputs (Stored lookup?)

variable {serves : Behaviour} {store : TestStore} {settings : Settings} {naming : Naming}
  {memory after : Memory} {source absolute : String}

/-! ## The name of the test file -/

/-- A source file has a name in a directory. -/
theorem exists_segments_of_isSource (hext : naming.sourceExtension ≠ "")
    (hsource : naming.isSource source = true) :
    ∃ front name, Path.segments source = front ++ [name] ∧ Path.IsName name ∧
      Path.fileName source.toList = Path.fileName name.toList := by
  obtain ⟨front, name, hsegments⟩ :=
    (List.eq_nil_or_concat (Path.segments source)).resolve_left (Path.segments_ne_nil source)
  rw [List.concat_eq_append] at hsegments
  have hfile : Path.fileName source.toList = Path.fileName name.toList :=
    Path.fileName_of_getLast?_segments (by rw [hsegments, List.getLast?_concat])
  have hextension : (Path.extension? name.toList).map String.ofList =
      some naming.sourceExtension := by
    rw [Path.extension?, ← hfile]
    exact beq_iff_eq.1 hsource
  have hne {other : String}
      (hother : (Path.extension? other.toList).map String.ofList = none ∨
        (Path.extension? other.toList).map String.ofList = some "") : name ≠ other := by
    rintro rfl
    rw [hextension] at hother
    rcases hother with hnone | hempty
    · cases hnone
    · exact hext (Option.some.inj hempty)
  refine ⟨front, name, hsegments, ⟨⟨?_, ?_⟩, hne (Or.inr (by decide))⟩, hfile⟩
  · exact Path.isSegment_of_mem_segments (by rw [hsegments]; simp)
  · rw [Path.isVoid, Bool.or_eq_false_iff, String.isEmpty_eq_false_iff, beq_eq_false_iff_ne]
    exact ⟨hne (Or.inl (by decide)), hne (Or.inl (by decide))⟩

/-- The path from the root ends with the file name of the path that was
given. -/
theorem fileName_absoluteSource (hserves : Locates serves) (hext : naming.sourceExtension ≠ "")
    (hsource : naming.isSource source = true)
    (h : Runs serves memory (absoluteSource source) (.ok absolute) after) :
    Path.fileName absolute.toList = Path.fileName source.toList := by
  obtain ⟨front, name, hsegments, hname, hfile⟩ := exists_segments_of_isSource hext hsource
  rw [hfile]
  rcases runs_absoluteSource hserves h with ⟨tree, place, hlocate, rfl⟩ | rfl
  · obtain ⟨-, hfollow⟩ := Tree.locate_eq_ok.1 hlocate
    rw [hsegments, Tree.follow_append_ok] at hfollow
    obtain ⟨parent, -, hend⟩ := hfollow
    obtain ⟨next, henter, hnil⟩ := Tree.follow_cons_ok.1 hend
    cases hnil
    rw [(Tree.enter_eq_ok_iff.1 henter).2.eq_append hname.1.2 hname.2]
    have hpath : pathOf (parent ++ [name]) = Path.Rooted.slashed parent ++ "/" ++ name := by
      rw [← Path.Rooted.slashed_concat, pathOf, if_neg (by simp)]
      rfl
    rw [hpath, String.toList_append, String.toList_append, List.append_assoc]
    exact Path.fileName_append_slash _ name.toList
  · have hsteps : Path.steps source =
        front.filter (fun segment => !Path.isVoid segment) ++ [name] := by
      rw [Path.steps, hsegments, List.filter_append, List.filter_cons_of_pos (by simp [hname.1.2])]
      rfl
    apply Path.fileName_of_getLast?_segments
    simp only [Path.absolute, not_endsWithSlash_of_isSource hsource, hsteps, List.foldl_append]
    exact Path.getLast?_segments_join _ hname.1.1

/-- The path from the root and the path that was given name one test file. -/
theorem testFileOf_absoluteSource (hserves : Locates serves) (hext : naming.sourceExtension ≠ "")
    (hsource : naming.isSource source = true)
    (h : Runs serves memory (absoluteSource source) (.ok absolute) after) :
    naming.testFileOf absolute = naming.testFileOf source := by
  rw [Naming.testFileOf, Naming.testFileOf, Naming.stemOf, Naming.stemOf, Path.stem, Path.stem,
    fileName_absoluteSource hserves hext hsource h]

/-! ## The directory -/

/-- The directory for a source file when nobody is asked. -/
def declinedOutput (store : TestStore) (source : String) : ResolvedOutput :=
  let own := Path.containingDir source
  match lookup? store.preferences.document source with
  | some stored => ⟨if stored.inUse then stored.directory.getD own else own, false, none⟩
  | none => ⟨own, true, some ⟨source, own⟩⟩

theorem resolve_declined (store : TestStore) (source : String) :
    store.resolve source .declined = .done (declinedOutput store source) := by
  rw [TestStore.resolve, declinedOutput]
  cases lookup? store.preferences.document source <;> rfl

/-! ## What an answer says -/

theorem Standing.text_injective : Function.Injective Standing.text := by
  intro standing other h
  cases standing <;> cases other <;> first | rfl | exact absurd h (by decide)

theorem Standing.ofStored_eq_unknown {stored? : Option Stored} :
    Standing.ofStored stored? = .unknown ↔ stored? = none := by
  rcases stored? with _ | ⟨_ | directory, _ | _⟩ <;> simp [Standing.ofStored]

theorem Standing.ofStored_eq_remembered {stored? : Option Stored} :
    Standing.ofStored stored? = .remembered ↔
      ∃ directory, stored? = some ⟨some directory, true⟩ := by
  rcases stored? with _ | ⟨_ | directory, _ | _⟩ <;> simp [Standing.ofStored]

theorem firstTime_declinedOutput :
    (declinedOutput store source).firstTime = true ↔
      lookup? store.preferences.document source = none := by
  rw [declinedOutput]
  cases lookup? store.preferences.document source <;> simp

theorem directory_declinedOutput {directory : String}
    (h : lookup? store.preferences.document source = some ⟨some directory, true⟩) :
    (declinedOutput store source).directory = directory := by
  simp [declinedOutput, h]

/-- Without a directory that may be used, the test file is beside the source
file. -/
theorem directory_declinedOutput_own
    (h : ∀ directory, lookup? store.preferences.document source ≠ some ⟨some directory, true⟩) :
    (declinedOutput store source).directory = Path.containingDir source := by
  rw [declinedOutput]
  rcases hlookup : lookup? store.preferences.document source with _ | ⟨_ | directory, _ | _⟩
  · rfl
  · rfl
  · rfl
  · rfl
  · exact absurd hlookup (h directory)

/-- A look into the preferences finds no empty directory. -/
theorem ne_empty_of_lookup? {document : Preferences.Document} {directory : String} {inUse : Bool}
    (h : lookup? document source = some ⟨some directory, inUse⟩) : directory ≠ "" := by
  rintro rfl
  rw [lookup?] at h
  split at h
  · rw [Option.some.injEq, Stored.mk.injEq] at h
    simpa using (Option.filter_eq_some_iff.1 h.1).2
  · cases h

/-- Whether the words of an answer are those for a standing. -/
def Destination.Says (shown : Destination) (standing : Standing) : Prop :=
  shown.standing.text = standing.text

theorem Destination.says_iff {shown : Destination} {standing : Standing} :
    shown.Says standing ↔ shown.standing = standing :=
  ⟨fun h => Standing.text_injective h, fun h => congrArg Standing.text h⟩

/-- What an answer about a source file, whose test file has some name, says
about a dry run without a prompt. -/
structure Foretells (store : TestStore) (name : String) (shown : Destination)
    (generated : Generated) : Prop where
  testFile : generated.testFile = shown.testFile
  unknown : shown.Says .unknown ↔ generated.firstTime = true
  /-- The remembered directory is said to be used exactly if there is one, it
  may be used, and the test file is in it. -/
  remembered : shown.Says .remembered ↔ ∃ directory, directory ≠ "" ∧
    lookup? store.preferences.document shown.source = some ⟨some directory, true⟩ ∧
    generated.testFile = Path.join directory name
  /-- Otherwise the test file is beside the source file. -/
  otherwise : ¬ shown.Says .remembered →
    generated.testFile = Path.join (Path.containingDir shown.source) name

/-- The answer for a path from the root. -/
def shownFor (store : TestStore) (naming : Naming) (absolute : String) : Destination where
  source := absolute
  testFile := Path.join (declinedOutput store absolute).directory (naming.testFileOf absolute)
  standing := .ofStored (lookup? store.preferences.document absolute)

/-- An answer foretells a dry run that uses the same directory. -/
theorem foretells_shownFor {generated : Generated}
    (htestFile : generated.testFile =
      Path.join (declinedOutput store absolute).directory (naming.testFileOf absolute))
    (hfirstTime : generated.firstTime = (declinedOutput store absolute).firstTime) :
    Foretells store (naming.testFileOf absolute) (shownFor store naming absolute) generated where
  testFile := by rw [htestFile, shownFor]
  unknown := by
    rw [Destination.says_iff, hfirstTime, firstTime_declinedOutput]
    exact Standing.ofStored_eq_unknown
  remembered := by
    rw [Destination.says_iff]
    refine Standing.ofStored_eq_remembered.trans ⟨?_, ?_⟩
    · rintro ⟨directory, hlookup⟩
      refine ⟨directory, ne_empty_of_lookup? hlookup, hlookup, ?_⟩
      rw [htestFile, directory_declinedOutput hlookup]
    · rintro ⟨directory, -, hlookup, -⟩
      exact ⟨directory, hlookup⟩
  otherwise := by
    rw [Destination.says_iff]
    intro hnot
    have hown := directory_declinedOutput_own fun directory hlookup =>
      hnot (Standing.ofStored_eq_remembered.2 ⟨directory, hlookup⟩)
    rw [htestFile, shownFor, hown]

/-! ## Answers and dry runs -/

theorem run_destination (h : memory.run (absoluteSource source) = (.ok absolute, memory)) :
    memory.run (destination store naming source) = (.ok (shownFor store naming absolute), memory) := by
  rw [destination, Action.bind_eq, Memory.run_andThen, h]
  simp only [resolve_declined]
  rfl

/-- A dry run without a prompt uses the directory of the answer. -/
theorem run_generate_declined {selection : Source.Selection}
    {signature : Signature} (h : memory.run (absoluteSource source) = (.ok absolute, memory))
    (hsubject : subject? settings ⟨some source, selection⟩ memory = some (source, signature)) :
    ∃ generated, memory.run (generate store settings ⟨some source, selection⟩ .declined true) =
        ((.ok generated, store), memory) ∧
      generated.testFile = Path.join (declinedOutput store absolute).directory
        (settings.naming.testFileOf source) ∧
      generated.firstTime = (declinedOutput store absolute).firstTime := by
  have hrun := run_generate store settings ⟨some source, selection⟩ .declined true memory
  rw [hsubject] at hrun
  simp only at hrun
  have hname : (planFor settings source signature).fileName = settings.naming.testFileOf source :=
    rfl
  -- a name for the plan, so that it is not computed
  generalize planFor settings source signature = plan at hrun hname
  rw [hrun, generatePlan, Action.bind_eq, Memory.run_andThen, h, ← hname]
  simp only [resolve_declined, Action.bind_eq, Action.done_andThen, if_true, Memory.run_andThen]
  exact ⟨_, rfl, rfl, rfl⟩

/-- For every source file there is an answer, which changes nothing and
foretells every dry run without a prompt that succeeds.  One that is not
refused for its selection does succeed. -/
theorem destination_foretells (hsettings : settings.fault? = none)
    (hsource : settings.naming.isSource source = true) (store : TestStore) (memory : Memory) :
    ∃ shown, memory.run (destination store settings.naming source) = (.ok shown, memory) ∧
      ∀ selection,
        (∀ generated store' after,
          memory.run (generate store settings ⟨some source, selection⟩ .declined true) =
            ((.ok generated, store'), after) →
          Foretells store (settings.naming.testFileOf source) shown generated) ∧
        ((subject? settings ⟨some source, selection⟩ memory).isSome = true →
          ∃ generated,
            memory.run (generate store settings ⟨some source, selection⟩ .declined true) =
              ((.ok generated, store), memory)) := by
  have hext : settings.naming.sourceExtension ≠ "" := by
    intro hempty
    have hbare := (Settings.fault?_eq_none_iff.1 hsettings).sourceExtension
    rw [hempty] at hbare
    cases hbare
  obtain ⟨absolute, habsolute⟩ := exists_run_absoluteSource hsource memory
  have hname := testFileOf_absoluteSource (locates_of_refines Memory.carriesOut_refines) hext hsource
    (runs_carriesOut.2 habsolute)
  refine ⟨_, run_destination habsolute, fun selection => ⟨?_, ?_⟩⟩
  · intro generated store' after hrun
    cases hsubject : subject? settings ⟨some source, selection⟩ memory with
    | none =>
      have hrefused := run_generate store settings ⟨some source, selection⟩ .declined true memory
      rw [hsubject] at hrefused
      obtain ⟨failure, hfailed⟩ := hrefused
      rw [hrun] at hfailed
      cases hfailed
    | some subject =>
      obtain ⟨path, signature⟩ := subject
      have hpath : some source = some path := (isSource_of_subject hsubject).1
      obtain rfl := Option.some.inj hpath
      obtain ⟨done, hdone, htestFile, hfirstTime⟩ := run_generate_declined habsolute hsubject
      rw [hrun] at hdone
      cases hdone
      rw [← hname] at htestFile ⊢
      exact foretells_shownFor htestFile hfirstTime
  · intro hsome
    obtain ⟨⟨path, signature⟩, hsubject⟩ := Option.isSome_iff_exists.1 hsome
    have hpath : some source = some path := (isSource_of_subject hsubject).1
    obtain rfl := Option.some.inj hpath
    obtain ⟨done, hdone, -⟩ := run_generate_declined habsolute hsubject
    exact ⟨done, hdone⟩

/-- A store in which a directory is remembered, but the flag was turned off. -/
def switchedOffStore : TestStore where
  preferences := .memory (({} : Preferences.Document).applyAll
    (Preferences.Outputs.rememberChanges "/src/Job.cpp" "/lib" ++
      [.setBool Preferences.Outputs.rootCollection Preferences.Outputs.useFlag false]))
  lockDir := "/locks"

/-- The remembered directory is not used, and the answer says so. -/
theorem destination_foretells_switchedOff :
    ({} : Settings).fault? = none ∧ ({} : Settings).naming.isSource "/src//Job.cpp" = true ∧
    ∃ shown generated,
      previewMemory.run (destination switchedOffStore {} "/src//Job.cpp") =
        (.ok shown, previewMemory) ∧
      shown.standing = .switchedOff ∧ shown.testFile = "/src/JobTest.cpp" ∧
      previewMemory.run (generate switchedOffStore {}
        ⟨some "/src//Job.cpp", .text "void Run();"⟩ .declined true) =
          ((.ok generated, switchedOffStore), previewMemory) ∧
      Foretells switchedOffStore "JobTest.cpp" shown generated := by
  have hsettings : ({} : Settings).fault? = none := by decide
  have hsource : ({} : Settings).naming.isSource "/src//Job.cpp" = true := by decide
  have hshows : (previewMemory.run (destination switchedOffStore {} "/src//Job.cpp")).1.toOption.map
      (fun shown => (shown.standing, shown.testFile)) = some (.switchedOff, "/src/JobTest.cpp") ∧
      (subject? {} ⟨some "/src//Job.cpp", .text "void Run();"⟩ previewMemory).isSome = true := by
    decide +kernel
  obtain ⟨shown, hshown, hruns⟩ :=
    destination_foretells hsettings hsource switchedOffStore previewMemory
  obtain ⟨hforetells, hsucceeds⟩ := hruns (.text "void Run();")
  obtain ⟨generated, hrun⟩ := hsucceeds hshows.2
  have hparts := hshows.1
  have hdestination : previewMemory.run (destination switchedOffStore {} "/src//Job.cpp") =
      (.ok shown, previewMemory) := hshown
  rw [hdestination] at hparts
  obtain ⟨hstanding, htestFile⟩ := Prod.mk.inj (Option.some.inj hparts)
  exact ⟨hsettings, hsource, shown, generated, hshown, hstanding, htestFile, hrun,
    hforetells generated _ _ hrun⟩

end TestSkeleton.Generation
