import TestSkeleton.Proofs.Files.Locking
import TestSkeleton.Proofs.Generation.Extending
import TestSkeleton.Proofs.Generation.Writing

/-!
# The source file

A generation reads its source file and never writes it.  Nothing compares the
two paths: the test file has another name than the source file because the
suffix goes between the stem and the extension, and so has the temporary file
beside it.

* `stem_of_getLast?_segments` is the stem that the last name of a path has.
* `keepsApart_testFile` and `keepsApart_temporary` say that the names differ,
  for a suffix without separators.
* `frames_generate` bounds what a generation changes by the paths that it
  writes, and `runs_generate_source` is about the source file.
* `replaces_source` is a generation with a suffix that the settings allow,
  which leads from the source file to itself.
-/

namespace TestSkeleton

namespace Path

/-- A path and its last part have the same file name. -/
theorem fileName_append_slash (front back : List Char) :
    fileName (front ++ '/' :: back) = fileName back := by
  obtain ⟨directory, hdirectory, hback⟩ := exists_append_fileName back
  have hpath : front ++ '/' :: back = front ++ '/' :: directory ++ fileName back := by
    conv => lhs; rw [hback]
    simp
  rw [hpath]
  refine fileName_append (fun c hc => ?_) fun c hc => not_isNameSeparator_of_mem_fileName hc
  have hlast : directory.getLast?.getD '/' = c := by
    simpa [List.getLast?_append, List.getLast?_cons] using hc
  rw [← hlast]
  cases hdir : directory.getLast? with
  | none => rfl
  | some d => exact hdirectory d hdir

theorem fileName_of_getLast?_segments {path name : String}
    (h : (segments path).getLast? = some name) : fileName path.toList = fileName name.toList := by
  by_cases hslash : '/' ∈ path.toList
  · obtain ⟨back, front, hcut, hback⟩ := List.eq_append_cons_of_mem (List.mem_reverse.2 hslash)
    have hpath : path.toList = front.reverse ++ '/' :: back.reverse := by
      rw [← List.reverse_reverse path.toList, hcut]
      simp
    have hlast : Text.fields (fun c => c == '/') back.reverse = [back.reverse] := by
      refine Text.fields_eq_singleton fun c hc => beq_eq_false_iff_ne.2 ?_
      rintro rfl
      exact hback (List.mem_reverse.1 hc)
    rw [segments, hpath, Text.fields_append_cons (by rfl), hlast, List.map_append, List.map_singleton,
      List.getLast?_concat, Option.some.injEq] at h
    rw [hpath, fileName_append_slash, ← h, String.toList_ofList]
  · rw [segments_of_isSegment hslash, List.getLast?_singleton, Option.some.injEq] at h
    rw [h]

/-- The stem of a path whose last name is cut by a dot. -/
theorem stem_of_getLast?_segments {path name : String} {front ext : List Char}
    (h : (segments path).getLast? = some name) (hname : name.toList = front ++ '.' :: ext)
    (hfront : front ≠ []) (hbare : ∀ c ∈ front ++ ext, isNameSeparator c = false)
    (hext : ∀ c ∈ ext, c ≠ '.') : stem path.toList = front := by
  rw [stem, fileName_of_getLast?_segments h, hname, ← stem]
  exact stem_append hfront (fun c hc => hbare c (List.mem_append_left _ hc)) hext
    fun c hc => hbare c (List.mem_append_right _ hc)

/-- A segment that is longer than those that go nowhere is a step. -/
theorem isStep_of_two_le {name : String} (h : IsSegment name) (hlong : 2 ≤ name.toList.length) :
    IsStep name := by
  have hshort {other : String} (hlength : other.toList.length < 2) : name ≠ other := by
    rintro rfl
    omega
  refine ⟨h, ?_⟩
  rw [isVoid, Bool.or_eq_false_iff, String.isEmpty_eq_false_iff, beq_eq_false_iff_ne]
  exact ⟨hshort (by decide), hshort (by decide)⟩

end Path

namespace Generation

open Files
open Files.Action (Runs runs_done runs_step runs_andThen)
open Memory (Attempts Frames Leads HasFile KeepsApart)

/-! ## Names that differ -/

section

variable {naming : Naming} {source : String} {memory : Memory}

theorem not_isNameSeparator_of_mem_toString {n : Nat} {c : Char} (h : c ∈ (toString n).toList) :
    Path.isNameSeparator c = false := by
  have hdigit := Text.isDigit_of_mem_toString h
  rw [Path.isNameSeparator, Bool.or_eq_false_iff, beq_eq_false_iff_ne, beq_eq_false_iff_ne]
  constructor <;>
  · rintro rfl
    cases hdigit

theorem isEmpty_of_isSource (hsource : naming.isSource source = true) : source.isEmpty = false := by
  rw [String.isEmpty_eq_false_iff]
  rintro rfl
  cases hsource

/-- The name of a test file, cut at its last dot. -/
theorem toList_testFileOf (hsource : naming.isSource source = true) :
    ∃ ext, (naming.testFileOf source).toList =
        Path.stem source.toList ++ naming.testSuffix.toList ++ '.' :: ext ∧
      Path.stem source.toList ≠ [] ∧ (∀ c ∈ ext, c ≠ '.') ∧
      ∀ c ∈ ext, Path.isNameSeparator c = false := by
  have hmap : (Path.extension? source.toList).map String.ofList = some naming.sourceExtension :=
    beq_iff_eq.1 hsource
  obtain ⟨ext, hext, hsame⟩ := Option.map_eq_some_iff.1 hmap
  refine ⟨ext, ?_, Path.stem_ne_nil hext, fun c hc => Path.ne_dot_of_mem_extension hext hc,
    fun c hc => Path.not_isNameSeparator_of_mem_extension hext hc⟩
  rw [Naming.testFileOf, Naming.stemOf, ← hsame]
  simp

/-- Besides the suffix the name of a test file has a stem and a dot. -/
theorem length_testFileOf (hsource : naming.isSource source = true) :
    naming.testSuffix.toList.length + 2 ≤ (naming.testFileOf source).toList.length := by
  obtain ⟨ext, hname, hstem, -⟩ := toList_testFileOf hsource
  have hstem' := List.length_pos_iff.2 hstem
  rw [hname, List.length_append, List.length_append, List.length_cons]
  omega

variable (hsource : naming.isSource source = true) (hempty : naming.testSuffix ≠ "")
  (hsuffix : ∀ c ∈ naming.testSuffix.toList, Path.isNameSeparator c = false)

include hsource hsuffix

theorem not_isNameSeparator_of_mem_testFileOf {c : Char}
    (hc : c ∈ (naming.testFileOf source).toList) : Path.isNameSeparator c = false := by
  obtain ⟨ext, hname, -, -, hbare⟩ := toList_testFileOf hsource
  rw [hname, List.mem_append, List.mem_append] at hc
  rcases hc with (hc | hc) | hc
  · exact Path.not_isNameSeparator_of_mem_stem hc
  · exact hsuffix c hc
  · rcases List.mem_cons.1 hc with rfl | hc
    · rfl
    · exact hbare c hc

/-- A temporary file beside a test file has a longer stem than the source
file. -/
theorem getLast?_segments_ne_temporaryLast (processId : Nat) :
    (Path.segments source).getLast? ≠
      some (temporaryLast (naming.testFileOf source) processId) := by
  intro hlast
  obtain ⟨ext, hname, -⟩ := toList_testFileOf hsource
  have htemporary : (temporaryLast (naming.testFileOf source) processId).toList =
      '.' :: (naming.testFileOf source).toList ++ '.' :: (toString processId).toList ++
        '.' :: ['t', 'm', 'p'] := by
    simp [temporaryLast]
  have hbare : ∀ c ∈ ('.' :: (naming.testFileOf source).toList ++ '.' ::
      (toString processId).toList) ++ ['t', 'm', 'p'], Path.isNameSeparator c = false := by
    intro c hc
    simp only [List.mem_append, List.mem_cons, List.not_mem_nil, or_false] at hc
    rcases hc with ((rfl | hc) | rfl | hc) | rfl | rfl | rfl
    · rfl
    · exact not_isNameSeparator_of_mem_testFileOf hsource hsuffix hc
    · rfl
    · exact not_isNameSeparator_of_mem_toString hc
    all_goals rfl
  have hstem := Path.stem_of_getLast?_segments hlast htemporary (by simp) hbare (by simp)
  have hlength := congrArg List.length hstem
  simp only [hname, List.length_append, List.length_cons] at hlength
  omega

include hempty

/-- A test file has another stem than its source file. -/
theorem getLast?_segments_ne_testFileOf :
    (Path.segments source).getLast? ≠ some (naming.testFileOf source) := by
  intro hlast
  obtain ⟨ext, hname, hstem, hdots, -⟩ := toList_testFileOf hsource
  have hbare : ∀ c ∈ Path.stem source.toList ++ naming.testSuffix.toList ++ ext,
      Path.isNameSeparator c = false := by
    intro c hc
    refine not_isNameSeparator_of_mem_testFileOf hsource hsuffix ?_
    rw [hname]
    exact (List.Sublist.refl _).append (List.sublist_cons_self '.' ext) |>.subset hc
  have hsame := Path.stem_of_getLast?_segments hlast hname
    (List.append_ne_nil_of_left_ne_nil hstem _) hbare hdots
  have hlength := congrArg List.length hsame
  rw [List.length_append] at hlength
  have hne := List.length_pos_iff.2 (mt String.toList_eq_nil_iff.1 hempty)
  omega

/-- The name of a test file names something in a directory. -/
theorem isName_testFileOf : Path.IsName (naming.testFileOf source) := by
  have hlength := length_testFileOf hsource
  have hsuffix' := List.length_pos_iff.2 (mt String.toList_eq_nil_iff.1 hempty)
  refine ⟨Path.isStep_of_two_le (fun hslash => ?_) (by omega), fun hup => ?_⟩
  · have hbare := not_isNameSeparator_of_mem_testFileOf hsource hsuffix hslash
    cases hbare
  · -- the suffix makes it longer than `..`
    have htwo : (naming.testFileOf source).toList.length = 2 := by
      rw [hup]
      rfl
    omega

/-- The source file and its test file are apart. -/
theorem keepsApart_testFile (directory : String) :
    KeepsApart memory source (Path.join directory (naming.testFileOf source)) := by
  refine .of_getLast?_segments ?_
  rw [Path.getLast?_segments_join directory (isName_testFileOf hsource hempty hsuffix).1.1]
  exact getLast?_segments_ne_testFileOf hsource hempty hsuffix

/-- The source file and the temporary file beside its test file are apart. -/
theorem keepsApart_temporary (directory : String) (processId : Nat) :
    KeepsApart memory source
      (temporaryName (Path.join directory (naming.testFileOf source)) processId) := by
  refine .of_getLast?_segments ?_
  rw [getLast?_segments_temporaryName,
    Path.lastName?_join directory (isName_testFileOf hsource hempty hsuffix), Option.getD_some]
  exact getLast?_segments_ne_temporaryLast hsource hsuffix processId

end

/-! ## What a generation changes -/

variable {store : TestStore} {settings : Settings} {context : Source.Context}
  {prompt : Source.FolderPrompt} {dryRun : Bool} {memory after : Memory}
  {result : Except Failure Generated × TestStore}

/-- The test file is named after the source file. -/
theorem Planned.fileName_eq {serves : Behaviour}
    (planned : Planned serves store settings context prompt memory) :
    planned.plan.fileName = settings.naming.testFileOf planned.source := by
  have hplan := planned.plans
  rw [Generation.plan] at hplan
  split at hplan
  · rw [← Except.ok.inj hplan, planFor]
  · cases hplan

/-- A generation changes nothing, or the test file and the preferences, both
by way of temporary files. -/
theorem frames_generate
    (h : Runs Attempts memory (generate store settings context prompt dryRun) result after) :
    Frames [] [] memory after ∨
    ∃ planned : Planned Attempts store settings context prompt memory,
      Frames ([planned.testFile, temporaryName planned.testFile memory.processId] ++
          store.savePaths memory.processId)
        (StatePaths.lockFile store.lockDir planned.testFile :: store.saveLocks) memory after := by
  rcases runs_generate (.refl _) h with ⟨-, hframes, -⟩ | ⟨planned, -, hcarry⟩
  · exact Or.inl hframes
  refine Or.inr ⟨planned, ?_⟩
  have hasked := planned.frames (.refl _)
  obtain ⟨reply, written, hwrite, hrest⟩ := runs_andThen.1 hcarry
  have hwritten := frames_writeCase hwrite
  rw [hasked.changes.processId] at hwritten
  have hbefore := ((hasked.mono (List.nil_subset _) (List.nil_subset _)).trans hwritten).mono
    (List.subset_append_left _ (store.savePaths memory.processId))
    (List.subset_append_left _ store.saveLocks)
  cases reply with
  | error failure =>
    obtain ⟨-, rfl⟩ := runs_done.1 hrest
    exact hbefore
  | ok outcome =>
    obtain ⟨⟨committed, last⟩, saved, hcommit, hend⟩ := runs_andThen.1 hrest
    have hsaved := frames_commit hcommit
    rw [hbefore.changes.processId] at hsaved
    obtain rfl : after = saved := by
      cases committed with
      | error failure => exact (runs_done.1 hend).2
      | ok done => exact (runs_done.1 hend).2
    exact hbefore.trans (hsaved.mono (List.subset_append_right _ _) (List.subset_append_right _ _))

/-- Whether or not a generation succeeds, its source file is as it was, if
the suffix for test files has no separators and the preferences are not saved
over the source file. -/
theorem runs_generate_source {source : String} {content : ByteArray}
    (hchecked : settings.fault? = none)
    (hsuffix : ∀ c ∈ settings.naming.testSuffix.toList, Path.isNameSeparator c = false)
    (hpath : context.path = .ok source) (hfile : HasFile memory source content)
    (hpreferences : ∀ path ∈ store.savePaths memory.processId, ∀ place,
      Leads after source place → ¬ Leads after path place)
    (h : Runs Attempts memory (generate store settings context prompt dryRun) result after) :
    HasFile after source content := by
  rcases frames_generate h with hframes | ⟨planned, hframes⟩
  · exact hframes.hasFile hfile (by simp)
  obtain rfl : planned.source = source := Except.ok.inj (planned.isPath.symm.trans hpath)
  have hempty := (Settings.fault?_eq_none_iff.1 hchecked).testSuffix
  have htest : KeepsApart after planned.source planned.testFile := by
    rw [Planned.testFile, planned.fileName_eq]
    exact keepsApart_testFile planned.isSource hempty hsuffix _
  have htemporary : KeepsApart after planned.source
      (temporaryName planned.testFile memory.processId) := by
    rw [Planned.testFile, planned.fileName_eq]
    exact keepsApart_temporary planned.isSource hempty hsuffix _ _
  refine hframes.hasFile hfile fun path hmem place hleads => ?_
  rcases List.mem_append.1 hmem with hmem | hmem
  · simp only [List.mem_cons, List.not_mem_nil, or_false] at hmem
    rcases hmem with rfl | rfl
    · exact htest.not_leads hleads
    · exact htemporary.not_leads hleads
  · exact hpreferences path hmem place hleads

/-- The text of a source file. -/
def jobText : String := "void Run();\n"

/-- A system with that source file. -/
def jobMemory : Memory where
  tree := ⟨[(["src"], .directory), (["src", "Job.cpp"], .file jobText.toUTF8)]⟩

theorem hasFile_jobMemory : HasFile jobMemory "/src/Job.cpp" jobText.toUTF8 := by
  have hwell : jobMemory.tree.WellFormed := Tree.wellFormed_of_all rfl
  exact Memory.hasFile_of_read hwell rfl

/-- A generation for that source file. -/
def jobGeneration (settings : Settings) : Action (Except Failure Generated × TestStore) :=
  generate detourStore settings ⟨some "/src/Job.cpp", .text "void Run();"⟩ .declined false

/-- With the default settings a case is written, and not into the source
file. -/
theorem runs_generate_source_job :
    ∃ generated store after, jobMemory.run (jobGeneration {}) = ((.ok generated, store), after) ∧
      HasFile after "/src/Job.cpp" jobText.toUTF8 := by
  have hok : (jobMemory.run (jobGeneration {})).1.1.toBool = true := by decide +kernel
  have hruns := Action.runs_run Memory.attempts_serve (jobGeneration {}) jobMemory
  cases hrun : jobMemory.run (jobGeneration {}) with
  | mk reply after =>
    obtain ⟨result, store⟩ := reply
    rw [hrun] at hok hruns
    cases result with
    | error failure => cases hok
    | ok generated =>
      have hsuffix : ∀ c ∈ ({} : Settings).naming.testSuffix.toList,
          Path.isNameSeparator c = false := by
        intro c hc
        change c ∈ ['T', 'e', 's', 't'] at hc
        simp only [List.mem_cons, List.not_mem_nil, or_false] at hc
        rcases hc with rfl | rfl | rfl | rfl <;> rfl
      have hpreferences : ∀ path ∈ detourStore.savePaths jobMemory.processId, ∀ place,
          Leads after "/src/Job.cpp" place → ¬ Leads after path place :=
        fun path hpath => nomatch hpath
      exact ⟨generated, store, after, rfl, runs_generate_source (by decide +kernel) hsuffix rfl
        hasFile_jobMemory hpreferences hruns⟩

/-! ## A suffix that leads back -/

/-- Settings with a suffix that is a path. -/
def pathSettings : Settings where
  naming := { testSuffix := "/../Job" }

/-- Whether a generation created its file where the source file is. -/
def createsSource : (Except Failure Generated × TestStore) × Memory → Bool
  | ((.ok generated, _), after) =>
    generated.outcome == some .created &&
      (after.tree.locate after.current generated.testFile).toOption ==
        (after.tree.locate after.current "/src/Job.cpp").toOption
  | _ => false

theorem createsSource_pathSettings :
    createsSource (jobMemory.run (jobGeneration pathSettings)) = true := by
  decide +kernel

/-- These settings are accepted, and the test file replaces the source
file. -/
theorem replaces_source :
    pathSettings.fault? = none ∧ HasFile jobMemory "/src/Job.cpp" jobText.toUTF8 ∧
    ∃ generated store after,
      jobMemory.run (jobGeneration pathSettings) = ((.ok generated, store), after) ∧
      generated.outcome = some .created ∧ ¬ HasFile after "/src/Job.cpp" jobText.toUTF8 := by
  refine ⟨by decide +kernel, hasFile_jobMemory, ?_⟩
  have hcreates := createsSource_pathSettings
  cases hrun : jobMemory.run (jobGeneration pathSettings) with
  | mk reply after =>
    obtain ⟨result, store⟩ := reply
    rw [hrun] at hcreates
    cases result with
    | error failure => cases hcreates
    | ok generated =>
      simp only [createsSource, Bool.and_eq_true, beq_iff_eq] at hcreates
      obtain ⟨hcreated, hplaces⟩ := hcreates
      refine ⟨generated, store, after, rfl, hcreated, fun hfile => ?_⟩
      rcases generate_ends rfl false hrun with ⟨hnone, -⟩ |
        ⟨wrote, written, hwrite, hwritten, htestFile, houtcome, -⟩
      · rw [hnone generated rfl] at hcreated
        cases hcreated
      · cases hwritten
        rw [houtcome, Option.some.injEq] at hcreated
        obtain ⟨text, hread, ⟨-, rfl⟩ | ⟨front, happended, -⟩⟩ := TestStore.read_writeCase hwrite
        · -- the document is found under both paths, and starts with an include
          obtain ⟨place, hlocate, hnode⟩ := Memory.read_ok hread
          obtain ⟨place', hlocate', hnode'⟩ := Memory.read_ok hfile.read
          rw [htestFile, hlocate, hlocate'] at hplaces
          cases hplaces
          have hsame : wrote.plan.document.toUTF8 = jobText.toUTF8 := by
            rw [hnode, Option.some.injEq, Node.file.injEq] at hnode'
            exact hnode'
          have hhead : wrote.plan.document.toList.head? = some '#' := head?_document _ _ _ _
          rw [String.toByteArray_inj.1 hsame] at hhead
          cases hhead
        · rw [hcreated] at happended
          cases happended

end Generation

end TestSkeleton
